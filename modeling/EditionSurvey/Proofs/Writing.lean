/-
  Proofs/Writing.lean --- the ways to write a value in a data file.

  `Writes v cs` says that the characters `cs` write the value `v`: lists and objects with any
  blanks between their parts, and words, numbers and texts in any way in which these can be
  read.  `WritesFile` has blanks around as well.  A value may be written in many ways, but what
  is written is what is read, if no object has two members of one name (`readFile_of_writes`).

  A part of a file is read in the same way whatever follows it; for numbers something has to
  follow that no number goes on with.  The parts are put together by induction on the steps that
  the reader is given.
-/
import EditionSurvey.Value.Reader
import Mathlib.Data.List.TakeDrop

set_option autoImplicit false

namespace EditionSurvey

/-! ## Names that differ -/

/-- No object in the value has two members of one name. -/
def Value.Distinct : Value → Prop
  | .list items => ∀ v ∈ items, v.Distinct
  | .object members => (members.map Prod.fst).Nodup ∧ ∀ name v, (name, v) ∈ members → v.Distinct
  | _ => True
termination_by v => sizeOf v
decreasing_by
  · have hitem := List.sizeOf_lt_of_mem ‹v ∈ items›
    simp only [Value.list.sizeOf_spec]
    omega
  · have hmember := List.sizeOf_lt_of_mem ‹(name, v) ∈ members›
    simp only [Prod.mk.sizeOf_spec, Value.object.sizeOf_spec] at hmember ⊢
    omega

namespace Reader

/-! ## Writing -/

/-- Nothing but blanks. -/
def AllBlank (cs : List Char) : Prop := ∀ c ∈ cs, isBlank c = true

/-- Characters with blanks before and behind. -/
def Padded (core cs : List Char) : Prop :=
  ∃ before behind, AllBlank before ∧ AllBlank behind ∧ cs = before ++ (core ++ behind)

/-- The characters write a text, with its quotes. -/
def WritesText (s : String) (cs : List Char) : Prop :=
  ∃ body, cs = '"' :: body ∧ readText cs (body.length + 1) [] body = .ok (s, [])

mutual

/-- The characters write a value. -/
inductive Writes : Value → List Char → Prop where
  /-- a word or a number -/
  | atom {v : Value} {cs : List Char} (read : readAtom cs = .ok (v, [])) : Writes v cs
  /-- a text -/
  | text {s : String} {cs : List Char} (text : WritesText s cs) : Writes (.string s) cs
  /-- a list without items -/
  | emptyList {cs : List Char} (blank : AllBlank cs) : Writes (.list []) ('[' :: (cs ++ [']']))
  /-- a list with items -/
  | list {items : List Value} {cs : List Char} (written : WritesItems items cs) :
      Writes (.list items) ('[' :: cs)
  /-- an object without members -/
  | emptyObject {cs : List Char} (blank : AllBlank cs) :
      Writes (.object []) ('\x7b' :: (cs ++ ['\x7d']))
  /-- an object with members -/
  | object {members : List (String × Value)} {cs : List Char}
      (written : WritesMembers members cs) :
      Writes (.object members) ('\x7b' :: cs)

/-- The characters write the items of a list up to its bracket. -/
inductive WritesItems : List Value → List Char → Prop where
  /-- the last item -/
  | last {v : Value} {core cs : List Char} (value : Writes v core) (padded : Padded core cs) :
      WritesItems [v] (cs ++ [']'])
  /-- an item, and more of them -/
  | more {v : Value} {items : List Value} {core cs others : List Char} (value : Writes v core)
      (padded : Padded core cs) (rest : WritesItems items others) :
      WritesItems (v :: items) (cs ++ ',' :: others)

/-- The characters write the members of an object up to its brace. -/
inductive WritesMembers : List (String × Value) → List Char → Prop where
  /-- the last member -/
  | last {name : String} {v : Value} {key names core cs : List Char} (text : WritesText name key)
      (named : Padded key names) (value : Writes v core) (padded : Padded core cs) :
      WritesMembers [(name, v)] (names ++ ':' :: (cs ++ ['\x7d']))
  /-- a member, and more of them -/
  | more {name : String} {v : Value} {members : List (String × Value)}
      {key names core cs others : List Char} (text : WritesText name key)
      (named : Padded key names) (value : Writes v core) (padded : Padded core cs)
      (rest : WritesMembers members others) :
      WritesMembers ((name, v) :: members) (names ++ ':' :: (cs ++ ',' :: others))

end

/-- The characters write a file that holds one value. -/
def WritesFile (v : Value) (cs : List Char) : Prop := ∃ core, Writes v core ∧ Padded core cs

/-! ## Texts -/

section

variable {opening done cs left behind : List Char} {fuel : Nat} {s : String} {c : Char}

/-- An escape by number is read in full: something follows its four digits. -/
theorem exists_of_readUnit (h : readUnit cs = .ok (c, left)) :
    ∃ a b c d next rest, cs = a :: b :: c :: d :: next :: rest := by
  unfold readUnit at h
  split at h
  · exact ⟨_, _, _, _, _, _, rfl⟩
  · cases h

/-- Only an escape by number is a second unit. -/
theorem readLowUnit?_eq_none (h : ∀ tail, cs ≠ '\\' :: 'u' :: tail) :
    readLowUnit? cs = .ok none := by
  unfold readLowUnit?
  split
  · exact absurd rfl (h _)
  · rfl

/-- A second unit is an escape by four digits, with something behind it. -/
theorem exists_of_readLowUnit? {low : Nat} (h : readLowUnit? cs = .ok (some (low, left))) :
    ∃ a b d e next rest, cs = '\\' :: 'u' :: a :: b :: d :: e :: next :: rest ∧
      left = next :: rest ∧ hexNumber? a b d e = some low ∧ isLowUnit low = true := by
  unfold readLowUnit? at h
  split at h
  · next a b d e next rest =>
      cases hnumber : hexNumber? a b d e with
      | none => simp [hnumber, refuse] at h
      | some n =>
          by_cases hlow : isLowUnit n = true
          · obtain ⟨rfl, rfl⟩ : n = low ∧ next :: rest = left := by simpa [hnumber, hlow] using h
            exact ⟨a, b, d, e, next, rest, rfl, rfl, hnumber, hlow⟩
          · simp [hnumber, hlow] at h
  · cases h

theorem readLowUnit?_append_of_some {low : Nat}
    (h : readLowUnit? cs = .ok (some (low, left))) (more : List Char) :
    readLowUnit? (cs ++ more) = .ok (some (low, left ++ more)) := by
  obtain ⟨a, b, d, e, next, rest, rfl, rfl, hnumber, hlow⟩ := exists_of_readLowUnit? h
  simp [readLowUnit?, hnumber, hlow]

/-- A text that can be read does not break off in an escape, so more behind it completes none. -/
theorem readLowUnit?_append_of_none (hnone : readLowUnit? cs = .ok none)
    (h : readText opening fuel done cs = .ok (s, left)) (more : List Char) :
    readLowUnit? (cs ++ more) = .ok none := by
  by_cases hescape : ∃ tail, cs = '\\' :: 'u' :: tail
  · obtain ⟨tail, rfl⟩ := hescape
    cases fuel with
    | zero => simp [readText, refuse] at h
    | succ fuel =>
        simp only [readText] at h
        cases hunit : readUnit tail with
        | error fault => simp [hunit] at h
        | ok unit =>
            obtain ⟨a, b, c, d, next, rest, rfl⟩ := exists_of_readUnit hunit
            simp only [List.cons_append, readLowUnit?] at hnone ⊢
            cases hnumber : hexNumber? a b c d with
            | none => simp [hnumber, refuse] at hnone
            | some n =>
                have hlow : ¬isLowUnit n = true := by simpa [hnumber] using hnone
                simp [hlow]
  · refine readLowUnit?_eq_none fun tail heq => ?_
    match cs, fuel with
    | _, 0 => simp [readText, refuse] at h
    | [], fuel + 1 => simp [readText, refuse] at h
    | [first], fuel + 1 =>
        obtain rfl : first = '\\' := (List.cons.inj heq).1
        simp [readText, refuse] at h
    | first :: second :: rest, fuel + 1 =>
        obtain ⟨hfirst, heq⟩ := List.cons.inj heq
        obtain ⟨hsecond, _⟩ := List.cons.inj heq
        exact hescape ⟨rest, by rw [hfirst, hsecond]⟩

theorem readUnit_append (hunit : readUnit cs = .ok (c, left))
    (h : readText opening fuel done left = .ok (s, behind)) (more : List Char) :
    readUnit (cs ++ more) = .ok (c, left ++ more) := by
  obtain ⟨a, b, d, e, next, rest, rfl⟩ := exists_of_readUnit hunit
  simp only [List.cons_append, readUnit] at hunit ⊢
  cases hnumber : hexNumber? a b d e with
  | none => simp [hnumber, refuse] at hunit
  | some n =>
      simp only [hnumber] at hunit ⊢
      by_cases hhigh : isHighUnit n = true
      · simp only [hhigh, if_true] at hunit ⊢
        cases hlow : readLowUnit? (next :: rest) with
        | error fault => simp [hlow] at hunit
        | ok found =>
            rw [hlow] at hunit
            rw [← List.cons_append]
            cases found with
            | none =>
                obtain ⟨rfl, rfl⟩ := Prod.mk.inj (Except.ok.inj hunit)
                rw [readLowUnit?_append_of_none hlow h]
            | some unit =>
                obtain ⟨rfl, rfl⟩ := Prod.mk.inj (Except.ok.inj hunit)
                rw [readLowUnit?_append_of_some hlow]
      · simp only [hhigh] at hunit ⊢
        obtain ⟨rfl, rfl⟩ := Prod.mk.inj (Except.ok.inj hunit)
        rfl

/-- A character that is no backslash at the end and starts no escape is no backslash. -/
theorem ne_backslash {c : Char} {rest : List Char} (hend : c = '\\' → rest = [] → False)
    (hescape : ∀ d tail, c = '\\' → rest = d :: tail → False) : c ≠ '\\' := by
  intro hc
  cases rest with
  | nil => exact hend hc rfl
  | cons d tail => exact hescape d tail hc rfl

/-- A text is read in the same way whatever follows it. -/
theorem readText_append (h : readText opening fuel done cs = .ok (s, left))
    (other more : List Char) (extra : Nat) :
    readText other (extra + fuel) done (cs ++ more) = .ok (s, left ++ more) := by
  fun_induction readText opening fuel done cs with
  | case1 | case2 | case4 | case5 | case7 | case9 => cases h
  | case3 =>
      obtain ⟨rfl, rfl⟩ := Prod.mk.inj (Except.ok.inj h)
      rfl
  | case6 fuel done rest c behind hunit ih =>
      simp only [Nat.add_succ, List.cons_append, readText, readUnit_append hunit h]
      exact ih h
  | case8 fuel done c rest hu e hescaped ih =>
      simp only [Nat.add_succ, List.cons_append, readText, hescaped]
      exact ih h
  | case10 fuel done c rest hquote hend _ hescape hcontrol ih =>
      have hbackslash := ne_backslash hend hescape
      show readText other (extra + fuel + 1) done (c :: (rest ++ more)) = _
      simp [readText, hbackslash, hcontrol, ih h]

end

/-! ## Words and numbers -/

section

variable {cs left more : List Char} {v : Value}

/-- Nothing follows, or something that no value goes on with. -/
def Delimited (cs : List Char) : Prop :=
  ∀ c ∈ cs.head?, isBlank c = true ∨ c = ',' ∨ c = ']' ∨ c = '\x7d'

/-- What delimits a value belongs to no number. -/
theorem Delimited.head (h : Delimited more) {c : Char} (hc : c ∈ more.head?) :
    c.isDigit = false ∧ c ≠ '.' ∧ (c ≠ 'e' ∧ c ≠ 'E') ∧ c ≠ '-' ∧ c ≠ '+' := by
  have hcases := h c hc
  simp only [isBlank, Bool.or_eq_true, decide_eq_true_eq] at hcases
  rcases hcases with (((rfl | rfl) | rfl) | rfl) | rfl | rfl | rfl <;> decide

theorem Delimited.span_isDigit (h : Delimited more) (cs : List Char) :
    (cs ++ more).span Char.isDigit =
      ((cs.span Char.isDigit).1, (cs.span Char.isDigit).2 ++ more) := by
  simp only [List.span_eq_takeWhile_dropWhile]
  induction cs with
  | nil =>
      cases more with
      | nil => rfl
      | cons c more => simp [(h.head (c := c) rfl).1]
  | cons c cs ih =>
      obtain ⟨htake, hdrop⟩ := Prod.mk.inj ih
      cases hc : c.isDigit <;> simp [hc, htake, hdrop]

theorem readWhole?_of_ne {c : Char} {rest : List Char} (hzero : c ≠ '0') :
    readWhole? (c :: rest) = if c.isDigit then some ((c :: rest).span Char.isDigit) else none := by
  rw [readWhole?]
  exact hzero

theorem readWhole?_append (hmore : Delimited more) {whole : List Char}
    (h : readWhole? cs = some (whole, left)) :
    readWhole? (cs ++ more) = some (whole, left ++ more) := by
  match cs with
  | [] => simp [readWhole?] at h
  | c :: rest =>
      by_cases hzero : c = '0'
      · subst hzero
        obtain ⟨rfl, rfl⟩ := Prod.mk.inj (Option.some.inj h)
        rfl
      · rw [readWhole?_of_ne hzero] at h
        rw [List.cons_append, readWhole?_of_ne hzero, ← List.cons_append, hmore.span_isDigit]
        split at h
        · next hdigit =>
            rw [if_pos hdigit, Option.some.inj h]
        · cases h

theorem readFraction_of_ne {c : Char} {rest : List Char} (hpoint : c ≠ '.') :
    readFraction (c :: rest) = ([], c :: rest) := by
  simp [readFraction, hpoint]

theorem readFraction_append (hmore : Delimited more) (cs : List Char) :
    readFraction (cs ++ more) = ((readFraction cs).1, (readFraction cs).2 ++ more) := by
  match cs, more with
  | [], [] => rfl
  | [], c :: more =>
      exact readFraction_of_ne (hmore.head rfl).2.1
  | c :: rest, more =>
      by_cases hpoint : c = '.'
      · subst hpoint
        simp only [readFraction, List.cons_append, hmore.span_isDigit]
        rcases rest.span Char.isDigit with ⟨_ | ⟨digit, digits⟩, behind⟩ <;> rfl
      · rw [List.cons_append, readFraction_of_ne hpoint, readFraction_of_ne hpoint]
        rfl

theorem readExponentDigits?_of_ne (h : ∀ c ∈ cs.head?, c ≠ '-' ∧ c ≠ '+') :
    readExponentDigits? cs = match cs.span Char.isDigit with
      | ([], _) => none
      | (digits, left) => some (Int.ofNat (digitsValue digits), left) := by
  cases cs with
  | nil => rfl
  | cons c rest =>
      obtain ⟨hminus, hplus⟩ := h c rfl
      rcases hspan : (c :: rest).span Char.isDigit with ⟨_ | ⟨digit, digits⟩, behind⟩ <;>
        simp [readExponentDigits?, hminus, hplus, hspan, -List.span_eq_takeWhile_dropWhile]

theorem readExponentDigits?_append (hmore : Delimited more) (cs : List Char) :
    readExponentDigits? (cs ++ more) =
      (readExponentDigits? cs).map fun read => (read.1, read.2 ++ more) := by
  have hunsigned : ∀ cs : List Char, (∀ c ∈ cs.head?, c ≠ '-' ∧ c ≠ '+') →
      (∀ c ∈ (cs ++ more).head?, c ≠ '-' ∧ c ≠ '+') → readExponentDigits? (cs ++ more) =
        (readExponentDigits? cs).map fun read => (read.1, read.2 ++ more) := by
    intro cs hcs hboth
    rw [readExponentDigits?_of_ne hcs, readExponentDigits?_of_ne hboth, hmore.span_isDigit]
    rcases cs.span Char.isDigit with ⟨_ | ⟨digit, digits⟩, behind⟩ <;> rfl
  match cs with
  | [] => exact hunsigned [] (by simp) fun c hc => (hmore.head hc).2.2.2
  | c :: rest =>
      by_cases hsign : c = '-' ∨ c = '+'
      · obtain rfl | rfl := hsign
        all_goals
          simp only [readExponentDigits?, List.cons_append, hmore.span_isDigit]
          rcases rest.span Char.isDigit with ⟨_ | ⟨digit, digits⟩, behind⟩ <;> rfl
      · exact hunsigned (c :: rest) (by simpa using hsign) (by simpa using hsign)

theorem readExponent?_of_ne (h : ∀ c ∈ cs.head?, c ≠ 'e' ∧ c ≠ 'E') : readExponent? cs = none := by
  cases cs with
  | nil => rfl
  | cons c rest =>
      obtain ⟨he, hE⟩ := h c rfl
      simp [readExponent?, he, hE]

theorem readExponent?_append (hmore : Delimited more) (cs : List Char) :
    readExponent? (cs ++ more) =
      (readExponent? cs).map fun read => (read.1, read.2 ++ more) := by
  match cs with
  | [] => exact readExponent?_of_ne fun c hc => (hmore.head hc).2.2.1
  | c :: rest =>
    by_cases hc : c = 'e' ∨ c = 'E'
    · rcases hc with rfl | rfl
      · exact readExponentDigits?_append hmore rest
      · exact readExponentDigits?_append hmore rest
    · have hne : ∀ d ∈ (c :: rest).head?, d ≠ 'e' ∧ d ≠ 'E' := by simpa using hc
      rw [readExponent?_of_ne hne, List.cons_append, readExponent?_of_ne (by simpa using hc)]
      rfl

theorem readUnsigned_append (hmore : Delimited more) {start other : List Char} {negative : Bool}
    {v : Value} (h : readUnsigned start negative cs = .ok (v, left)) :
    readUnsigned other negative (cs ++ more) = .ok (v, left ++ more) := by
  unfold readUnsigned at h ⊢
  cases hwhole : readWhole? cs with
  | none => simp [hwhole, refuse] at h
  | some found =>
      obtain ⟨whole, behind⟩ := found
      simp only [hwhole] at h
      simp only [readWhole?_append hmore hwhole, readFraction_append hmore,
        readExponent?_append hmore]
      generalize readFraction behind = part at h ⊢
      obtain ⟨fraction, behindFraction⟩ := part
      cases hexponent : readExponent? behindFraction with
      | none =>
          simp only [hexponent, Option.map_none] at h ⊢
          split at h
          · cases h
          · next hlimit =>
            rw [if_neg hlimit]
            obtain ⟨rfl, rfl⟩ := Prod.mk.inj (Except.ok.inj h)
            rfl
      | some read =>
          simp only [hexponent, Option.map_some, Option.isNone_some, Bool.and_false,
            Bool.false_and] at h ⊢
          obtain ⟨rfl, rfl⟩ := Prod.mk.inj (Except.ok.inj h)
          rfl

/-- A number starts with a digit, or with a minus and a digit. -/
theorem exists_digit_of_readUnsigned {start : List Char} {negative : Bool} {v : Value}
    (h : readUnsigned start negative cs = .ok (v, left)) :
    ∃ c rest, cs = c :: rest ∧ c.isDigit = true := by
  unfold readUnsigned at h
  cases hwhole : readWhole? cs with
  | none => simp [hwhole, refuse] at h
  | some found =>
      match cs with
      | [] => simp [readWhole?] at hwhole
      | c :: rest =>
          refine ⟨c, rest, rfl, ?_⟩
          by_cases hzero : c = '0'
          · subst hzero
            rfl
          · rw [readWhole?_of_ne hzero] at hwhole
            by_contra hdigit
            simp [hdigit] at hwhole

theorem readNumber_of_ne {c : Char} {rest : List Char} (hminus : c ≠ '-') :
    readNumber (c :: rest) = readUnsigned (c :: rest) false (c :: rest) := by
  rw [readNumber]
  simpa using hminus

theorem readNumber_append (hmore : Delimited more) {v : Value}
    (h : readNumber cs = .ok (v, left)) : readNumber (cs ++ more) = .ok (v, left ++ more) := by
  match cs with
  | [] => simp [readNumber, readUnsigned, readWhole?, refuse] at h
  | c :: rest =>
      by_cases hminus : c = '-'
      · subst hminus
        exact readUnsigned_append hmore h
      · rw [readNumber_of_ne hminus] at h
        rw [List.cons_append, readNumber_of_ne hminus]
        exact readUnsigned_append hmore h

theorem readAtom_of_word {entry : String × Value} (h : entry ∈ words) (rest : List Char) :
    readAtom (entry.1.toList ++ rest) = .ok (entry.2, rest) := by
  simp only [words, List.mem_cons, List.not_mem_nil, or_false] at h
  rcases h with rfl | rfl | rfl | rfl | rfl | rfl <;> rfl

theorem readAtom_of_digit {c : Char} {rest : List Char} (h : c.isDigit = true) :
    readAtom (c :: rest) = readNumber (c :: rest) ∧
      readAtom ('-' :: c :: rest) = readNumber ('-' :: c :: rest) := by
  have hne : c ≠ 'n' ∧ c ≠ 't' ∧ c ≠ 'f' ∧ c ≠ 'N' ∧ c ≠ 'I' ∧ c ≠ '-' := by
    refine ⟨?_, ?_, ?_, ?_, ?_, ?_⟩ <;> (rintro rfl; revert h; decide)
  obtain ⟨hn, ht, hf, hN, hI, hminus⟩ := hne
  constructor
  · unfold readAtom
    simp [words, behindWord?, hn.symm, ht.symm, hf.symm, hN.symm, hI.symm, hminus.symm]
  · unfold readAtom
    simp [words, behindWord?, hI.symm]

/-- A word or a number is read from characters that start with the word, or with a digit, or with
a minus and a digit. -/
theorem readAtom_cases (h : readAtom cs = .ok (v, left)) :
    (∃ entry ∈ words, cs = entry.1.toList ++ left ∧ v = entry.2) ∨
      readNumber cs = .ok (v, left) ∧
        ∃ c rest, c.isDigit = true ∧ (cs = c :: rest ∨ cs = '-' :: c :: rest) := by
  unfold readAtom at h
  split at h
  · next result hfound =>
      obtain rfl := Except.ok.inj h
      obtain ⟨entry, hentry, hword⟩ := List.exists_of_findSome?_eq_some hfound
      obtain ⟨behind, hbehind, heq⟩ := Option.map_eq_some_iff.mp hword
      obtain ⟨rfl, rfl⟩ := Prod.mk.inj heq
      refine .inl ⟨entry, hentry, ?_, rfl⟩
      unfold behindWord? at hbehind
      split at hbehind
      · next hprefix =>
          obtain rfl := Option.some.inj hbehind
          obtain ⟨rest, rfl⟩ := List.isPrefixOf_iff_prefix.mp hprefix
          rw [← String.length_toList, List.drop_left]
      · cases hbehind
  · refine .inr ⟨h, ?_⟩
    match cs with
    | [] => simp [readNumber, readUnsigned, readWhole?, refuse] at h
    | c :: rest =>
        by_cases hminus : c = '-'
        · subst hminus
          obtain ⟨c, rest, rfl, hdigit⟩ := exists_digit_of_readUnsigned h
          exact ⟨c, rest, hdigit, .inr rfl⟩
        · rw [readNumber_of_ne hminus] at h
          obtain ⟨c, rest, heq, hdigit⟩ := exists_digit_of_readUnsigned h
          exact ⟨c, rest, hdigit, .inl heq⟩

theorem readAtom_append (hmore : Delimited more) (h : readAtom cs = .ok (v, left)) :
    readAtom (cs ++ more) = .ok (v, left ++ more) := by
  rcases readAtom_cases h with ⟨entry, hentry, rfl, rfl⟩ | ⟨hread, c, rest, hdigit, hcs⟩
  · rw [List.append_assoc]
    exact readAtom_of_word hentry _
  · have hnumber : readAtom (cs ++ more) = readNumber (cs ++ more) := by
      rcases hcs with rfl | rfl
      · exact (readAtom_of_digit hdigit).1
      · exact (readAtom_of_digit hdigit).2
    rw [hnumber]
    exact readNumber_append hmore hread

/-- What may be the first character of a word or a number. -/
theorem readAtom_head (h : readAtom cs = .ok (v, left)) :
    ∃ c rest, cs = c :: rest ∧ isBlank c = false ∧ c ∉ ['"', '[', ']', '\x7b', '\x7d'] := by
  rcases readAtom_cases h with ⟨entry, hentry, rfl, rfl⟩ | ⟨_, c, rest, hdigit, hcs⟩
  · simp only [words, List.mem_cons, List.not_mem_nil, or_false] at hentry
    rcases hentry with rfl | rfl | rfl | rfl | rfl | rfl
    all_goals exact ⟨_, _, rfl, by decide, by decide⟩
  · rcases hcs with rfl | rfl
    · refine ⟨c, rest, rfl, Bool.eq_false_iff.mpr fun hblank => ?_, fun hmem => ?_⟩
      · simp only [isBlank, Bool.or_eq_true, decide_eq_true_eq] at hblank
        rcases hblank with ((rfl | rfl) | rfl) | rfl <;> exact absurd hdigit (by decide)
      · simp only [List.mem_cons, List.not_mem_nil, or_false] at hmem
        rcases hmem with rfl | rfl | rfl | rfl | rfl <;> exact absurd hdigit (by decide)
    · exact ⟨_, _, rfl, by decide, by decide⟩

end

/-! ## Blanks -/

section

variable {core cs behind more : List Char}

theorem skipBlanks_append (h : AllBlank cs) (more : List Char) :
    skipBlanks (cs ++ more) = skipBlanks more := by
  induction cs with
  | nil => rfl
  | cons c cs ih =>
      obtain ⟨hc, hcs⟩ := List.forall_mem_cons.mp h
      rw [List.cons_append, skipBlanks, List.dropWhile_cons_of_pos hc]
      exact ih hcs

theorem skipBlanks_cons {c : Char} (h : isBlank c = false) : skipBlanks (c :: cs) = c :: cs := by
  simp [skipBlanks, h]

/-- Blanks before a mark are skipped up to it. -/
theorem skipBlanks_mark {c : Char} (h : AllBlank cs) (hc : isBlank c = false) :
    skipBlanks (cs ++ [c] ++ more) = c :: more := by
  rw [List.append_assoc, skipBlanks_append h]
  exact skipBlanks_cons hc

theorem delimited_of_blank (h : AllBlank behind) (hmore : Delimited more) :
    Delimited (behind ++ more) := by
  cases behind with
  | nil => exact hmore
  | cons c behind =>
      intro d hd
      obtain rfl : c = d := by simpa using hd
      exact .inl (h c List.mem_cons_self)

/-- The characters start with one that is no blank and closes no list. -/
def Starts (cs : List Char) : Prop :=
  ∃ c rest, cs = c :: rest ∧ isBlank c = false ∧ c ≠ ']'

theorem WritesText.starts {s : String} (h : WritesText s cs) : Starts cs := by
  obtain ⟨body, rfl, _⟩ := h
  exact ⟨'"', body, rfl, by decide, by decide⟩

theorem Writes.starts {v : Value} (h : Writes v cs) : Starts cs := by
  cases h with
  | atom read =>
      obtain ⟨c, rest, rfl, hblank, hc⟩ := readAtom_head read
      exact ⟨c, rest, rfl, hblank, fun heq => hc (by simp [heq])⟩
  | text text => exact text.starts
  | emptyList | list => exact ⟨'[', _, rfl, by decide, by decide⟩
  | emptyObject | object => exact ⟨'\x7b', _, rfl, by decide, by decide⟩

/-- Blanks before a part are skipped, and those behind it are left. -/
theorem Padded.skipBlanks (h : Padded core cs) (hcore : Starts core) :
    ∃ behind, AllBlank behind ∧
      ∀ more, Reader.skipBlanks (cs ++ more) = core ++ (behind ++ more) := by
  obtain ⟨before, behind, hbefore, hbehind, rfl⟩ := h
  obtain ⟨c, rest, rfl, hc, _⟩ := hcore
  refine ⟨behind, hbehind, fun more => ?_⟩
  rw [List.append_assoc, skipBlanks_append hbefore, List.append_assoc, List.cons_append,
    skipBlanks_cons hc]

end

/-! ## Reading what is written -/

section

variable {fuel levels : Nat} {v w : Value} {cs more left : List Char}

/-- What the reader makes of what is written, when it is given so many steps and comes to an
end. -/
structure ReadsBack (fuel : Nat) : Prop where
  /-- a value -/
  value : ∀ {levels : Nat} {v w : Value} {cs more left : List Char}, Writes v cs → v.Distinct →
    Delimited more → readValue fuel levels (cs ++ more) = .ok (w, left) → w = v ∧ left = more
  /-- the items of a list -/
  items : ∀ {levels : Nat} {items done : List Value} {w : Value} {cs more left : List Char},
    WritesItems items cs → (∀ v ∈ items, v.Distinct) →
      readItems fuel levels done (skipBlanks (cs ++ more)) = .ok (w, left) →
        w = .list (done.reverse ++ items) ∧ left = more
  /-- the members of an object -/
  members : ∀ {levels : Nat} {members done : List (String × Value)} {w : Value}
    {cs more left : List Char}, WritesMembers members cs →
      (∀ name v, (name, v) ∈ members → v.Distinct) → ((done ++ members).map Prod.fst).Nodup →
        readMembers fuel levels done (skipBlanks (cs ++ more)) = .ok (w, left) →
          w = .object (done ++ members) ∧ left = more

theorem readText_of_writes {s : String} {opening : List Char} (h : WritesText s ('"' :: cs))
    (more : List Char) :
    readText opening ((cs ++ more).length + 1) [] (cs ++ more) = .ok (s, more) := by
  obtain ⟨body, heq, hread⟩ := h
  obtain ⟨_, rfl⟩ := List.cons.inj heq
  have hlong : (cs ++ more).length + 1 = more.length + (cs.length + 1) := by
    rw [List.length_append]
    omega
  rw [hlong]
  exact readText_append hread opening more more.length

theorem readValue_of_ne {c : Char} {rest : List Char} (hc : c ∉ ['"', '[', ']', '\x7b', '\x7d']) :
    readValue (fuel + 1) levels (c :: rest) = readAtom (c :: rest) := by
  simp only [List.mem_cons, List.not_mem_nil, or_false, not_or] at hc
  obtain ⟨hquote, hbracket, _, hbrace, _⟩ := hc
  rw [readValue]
  · exact fun _ heq => hquote (List.cons.inj heq).1
  · exact fun _ heq => hbracket (List.cons.inj heq).1
  · exact fun _ heq => hbrace (List.cons.inj heq).1

/-- The items of a list start as a value does. -/
theorem WritesItems.skipBlanks_append {items : List Value} (h : WritesItems items cs)
    (more : List Char) :
    ∃ c rest, skipBlanks (cs ++ more) = c :: rest ∧ c ≠ ']' := by
  cases h with
  | last value padded | more value padded =>
      obtain ⟨behind, _, hskip⟩ := padded.skipBlanks value.starts
      obtain ⟨c, rest, rfl, _, hc⟩ := value.starts
      rw [List.append_assoc, hskip]
      exact ⟨c, _, rfl, hc⟩

/-- The members of an object start with a quote. -/
theorem WritesMembers.skipBlanks_append {members : List (String × Value)}
    (h : WritesMembers members cs) (more : List Char) :
    ∃ rest, skipBlanks (cs ++ more) = '"' :: rest := by
  cases h with
  | last text named | more text named =>
      obtain ⟨behind, _, hskip⟩ := named.skipBlanks text.starts
      obtain ⟨body, rfl, _⟩ := text
      rw [List.append_assoc, hskip]
      exact ⟨_, rfl⟩

theorem ReadsBack.readValue_succ (ih : ReadsBack fuel) (h : Writes v cs) (hdistinct : v.Distinct)
    (hmore : Delimited more) (hread : readValue (fuel + 1) levels (cs ++ more) = .ok (w, left)) :
    w = v ∧ left = more := by
  cases h with
  | atom read =>
      obtain ⟨c, rest, rfl, _, hc⟩ := readAtom_head read
      rw [List.cons_append, readValue_of_ne hc, ← List.cons_append,
        readAtom_append hmore read] at hread
      obtain ⟨rfl, rfl⟩ := Prod.mk.inj (Except.ok.inj hread)
      exact ⟨rfl, rfl⟩
  | text text =>
      obtain ⟨body, rfl, _⟩ := id text
      simp only [List.cons_append, readValue, readText_of_writes text] at hread
      obtain ⟨rfl, rfl⟩ := Prod.mk.inj (Except.ok.inj hread)
      exact ⟨rfl, rfl⟩
  | @emptyList blanks blank =>
      cases levels with
      | zero => simp [readValue] at hread
      | succ levels =>
          simp only [List.cons_append, readValue,
            skipBlanks_mark blank (by decide : isBlank ']' = false)] at hread
          obtain ⟨rfl, rfl⟩ := Prod.mk.inj (Except.ok.inj hread)
          exact ⟨rfl, rfl⟩
  | @list items body written =>
      cases levels with
      | zero => simp [readValue] at hread
      | succ levels =>
          obtain ⟨c, rest, hstart, hc⟩ := written.skipBlanks_append more
          have hitems : readItems fuel levels [] (skipBlanks (body ++ more)) = .ok (w, left) := by
            simp only [List.cons_append, readValue, hstart] at hread
            split at hread
            · next heq => exact absurd (List.cons.inj heq).1 hc
            · rwa [hstart]
          rw [Value.Distinct] at hdistinct
          exact ih.items written hdistinct hitems
  | @emptyObject blanks blank =>
      cases levels with
      | zero => simp [readValue] at hread
      | succ levels =>
          simp only [List.cons_append, readValue,
            skipBlanks_mark blank (by decide : isBlank '\x7d' = false)] at hread
          obtain ⟨rfl, rfl⟩ := Prod.mk.inj (Except.ok.inj hread)
          exact ⟨rfl, rfl⟩
  | @object members body written =>
      cases levels with
      | zero => simp [readValue] at hread
      | succ levels =>
          obtain ⟨rest, hstart⟩ := written.skipBlanks_append more
          have hmembers : readMembers fuel levels [] (skipBlanks (body ++ more)) =
              .ok (w, left) := by
            simp only [List.cons_append, readValue, hstart] at hread
            rwa [hstart]
          rw [Value.Distinct] at hdistinct
          have hnames : (([] ++ members).map Prod.fst).Nodup := hdistinct.1
          exact ih.members written hdistinct.2 hnames hmembers

/-- A value with blanks around it is read up to what delimits it. -/
theorem ReadsBack.readValue_padded (ih : ReadsBack fuel) {core : List Char} {c : Char}
    (h : Writes v core) (padded : Padded core cs) (hdistinct : v.Distinct)
    (hc : c = ',' ∨ c = ']' ∨ c = '\x7d')
    (hread : readValue fuel levels (skipBlanks (cs ++ c :: more)) = .ok (w, left)) :
    w = v ∧ skipBlanks left = c :: more := by
  obtain ⟨behind, hbehind, hskip⟩ := padded.skipBlanks h.starts
  have hmore : Delimited (c :: more) := by
    intro d hd
    obtain rfl : c = d := by simpa using hd
    exact .inr hc
  have hblank : isBlank c = false := by rcases hc with rfl | rfl | rfl <;> decide
  rw [hskip] at hread
  obtain ⟨rfl, rfl⟩ := ih.value h hdistinct (delimited_of_blank hbehind hmore) hread
  exact ⟨rfl, by rw [skipBlanks_append hbehind, skipBlanks_cons hblank]⟩

theorem ReadsBack.readItems_succ (ih : ReadsBack fuel) {items done : List Value}
    (h : WritesItems items cs) (hdistinct : ∀ v ∈ items, v.Distinct)
    (hread : readItems (fuel + 1) levels done (skipBlanks (cs ++ more)) = .ok (w, left)) :
    w = .list (done.reverse ++ items) ∧ left = more := by
  rw [readItems] at hread
  split at hread
  · cases hread
  · next found behind hvalue =>
      cases h with
      | last value padded =>
          rw [List.append_assoc] at hvalue
          obtain ⟨rfl, hbehind⟩ := ih.readValue_padded value padded
            (hdistinct _ List.mem_cons_self) (.inr (.inl rfl)) hvalue
          simp only [hbehind] at hread
          obtain ⟨rfl, rfl⟩ := Prod.mk.inj (Except.ok.inj hread)
          simp
      | more value padded rest =>
          rw [List.append_assoc] at hvalue
          obtain ⟨rfl, hbehind⟩ := ih.readValue_padded value padded
            (hdistinct _ List.mem_cons_self) (.inl rfl) hvalue
          simp only [hbehind] at hread
          obtain ⟨rfl, rfl⟩ := ih.items rest
            (fun v hv => hdistinct v (List.mem_cons_of_mem _ hv)) hread
          simp

theorem setMember_of_new {members : List (String × Value)} {name : String}
    (h : name ∉ members.map Prod.fst) (v : Value) :
    setMember members name v = members ++ [(name, v)] := by
  induction members with
  | nil => rfl
  | cons member rest ih =>
      obtain ⟨key, value⟩ := member
      rw [List.map_cons, List.mem_cons, not_or] at h
      rw [setMember, if_neg (Ne.symm h.1), ih h.2]
      rfl

/-- Behind the name of a member and its colon the value is read, and a brace or a comma. -/
theorem exists_of_readMembers {done : List (String × Value)} {name : String}
    {key names tail : List Char} (text : WritesText name key) (named : Padded key names)
    (hread : readMembers (fuel + 1) levels done (skipBlanks (names ++ ':' :: tail)) =
      .ok (w, left)) :
    ∃ v behind, readValue fuel levels (skipBlanks tail) = .ok (v, behind) ∧
      (skipBlanks behind = '\x7d' :: left ∧ w = .object (setMember done name v) ∨
        ∃ rest, skipBlanks behind = ',' :: rest ∧
          readMembers fuel levels (setMember done name v) (skipBlanks rest) = .ok (w, left)) := by
  obtain ⟨behind, hbehind, hskip⟩ := named.skipBlanks text.starts
  obtain ⟨body, rfl, _⟩ := id text
  rw [hskip, List.cons_append, readMembers, readText_of_writes text] at hread
  simp only [skipBlanks_append hbehind, skipBlanks_cons (show isBlank ':' = false by decide)]
    at hread
  cases hvalue : readValue fuel levels (skipBlanks tail) with
  | error fault => simp [hvalue] at hread
  | ok found =>
      obtain ⟨v, behind⟩ := found
      refine ⟨v, behind, rfl, ?_⟩
      simp only [hvalue] at hread
      split at hread
      · next heq =>
          obtain ⟨rfl, rfl⟩ := Prod.mk.inj (Except.ok.inj hread)
          exact .inl ⟨heq, rfl⟩
      · next rest heq => exact .inr ⟨rest, heq, hread⟩
      · simp [refuse] at hread

/-- A name that comes later is not among those before it. -/
theorem name_not_mem_of_nodup {member : String × Value} {done rest : List (String × Value)}
    (h : ((done ++ member :: rest).map Prod.fst).Nodup) : member.1 ∉ done.map Prod.fst := by
  rw [List.map_append, List.nodup_append] at h
  exact fun hmem => h.2.2 member.1 hmem member.1 (by simp) rfl

theorem ReadsBack.readMembers_succ (ih : ReadsBack fuel)
    {members done : List (String × Value)} (h : WritesMembers members cs)
    (hdistinct : ∀ name v, (name, v) ∈ members → v.Distinct)
    (hnames : ((done ++ members).map Prod.fst).Nodup)
    (hread : readMembers (fuel + 1) levels done (skipBlanks (cs ++ more)) = .ok (w, left)) :
    w = .object (done ++ members) ∧ left = more := by
  cases h with
  | @last name v key names core cs text named value padded =>
      rw [List.append_assoc, List.cons_append, List.append_assoc] at hread
      obtain ⟨found, behind, hvalue, hnext⟩ := exists_of_readMembers text named hread
      obtain ⟨rfl, hbehind⟩ := ih.readValue_padded value padded
        (hdistinct _ _ List.mem_cons_self) (.inr (.inr rfl)) hvalue
      rcases hnext with ⟨hleft, rfl⟩ | ⟨rest, hcomma, _⟩
      · rw [setMember_of_new (name_not_mem_of_nodup hnames)]
        exact ⟨rfl, (List.cons.inj (hleft.symm.trans hbehind)).2⟩
      · exact absurd (List.cons.inj (hcomma.symm.trans hbehind)).1 (by decide)
  | @more name v members key names core cs others text named value padded rest =>
      rw [List.append_assoc, List.cons_append, List.append_assoc] at hread
      obtain ⟨found, behind, hvalue, hnext⟩ := exists_of_readMembers text named hread
      obtain ⟨rfl, hbehind⟩ := ih.readValue_padded value padded
        (hdistinct _ _ List.mem_cons_self) (.inl rfl) hvalue
      rcases hnext with ⟨hleft, rfl⟩ | ⟨_, hcomma, hread⟩
      · exact absurd (List.cons.inj (hleft.symm.trans hbehind)).1 (by decide)
      · obtain ⟨_, rfl⟩ := List.cons.inj (hcomma.symm.trans hbehind)
        rw [setMember_of_new (name_not_mem_of_nodup hnames)] at hread
        have hlater : (((done ++ [(name, found)]) ++ members).map Prod.fst).Nodup := by
          simpa using hnames
        obtain ⟨rfl, rfl⟩ := ih.members rest
          (fun name v hmem => hdistinct name v (List.mem_cons_of_mem _ hmem)) hlater hread
        simp

/-- The reader reads back what is written, however many steps it is given. -/
theorem readsBack (fuel : Nat) : ReadsBack fuel := by
  induction fuel with
  | zero =>
      refine ⟨fun _ _ _ hread => ?_, fun _ _ hread => ?_, fun _ _ _ hread => ?_⟩
      · simp [readValue, refuse] at hread
      · simp [readItems, refuse] at hread
      · simp [readMembers, refuse] at hread
  | succ fuel ih => exact ⟨ih.readValue_succ, ih.readItems_succ, ih.readMembers_succ⟩

/-- What is written in a file is what is read from it, if no object has two members of one name
and if the file can be read at all: it may nest too deep, or hold a number that is too long. -/
theorem readFile_of_writes (h : WritesFile v cs) (hdistinct : v.Distinct)
    (hread : readFile cs = .ok w) : w = v := by
  obtain ⟨core, hwrites, before, behind, hbefore, hbehind, rfl⟩ := h
  obtain ⟨c, rest, rfl, hc, _⟩ := hwrites.starts
  unfold readFile at hread
  split at hread
  · simp [refuse] at hread
  · rw [skipBlanks_append hbefore, List.cons_append, skipBlanks_cons hc,
      ← List.cons_append] at hread
    split at hread
    · cases hread
    · next found left hvalue =>
        have hmore : Delimited behind := by
          rw [← List.append_nil behind]
          exact delimited_of_blank hbehind (by simp [Delimited])
        obtain ⟨rfl, rfl⟩ := (readsBack _).value hwrites hdistinct hmore hvalue
        split at hread
        · exact (Except.ok.inj hread).symm
        · simp [refuse] at hread

end

end Reader

end EditionSurvey
