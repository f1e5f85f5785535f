/-
  Proofs/Halves.lean --- escapes that stand for half of a character.

  A character that does not fit into one unit is escaped by a pair of units.  Half of a pair that
  stands alone stands for no character, and where a file escapes one, the readers put the
  replacement character in its place (`Reader.charOfUnit`, `Script.charOfPoint`).  What happens to
  such a text later on is not the matter of this library: it cannot be encoded, and so it can
  neither be a path nor be printed.

  So what is said of paths and of printed reports is said of files in which all escapes are
  paired (`FileTree.ManifestsPaired`, `FileTree.ScriptsPaired`).  In them the readers yield just
  the characters that are written (`Reader.readText_of_paired`,
  `Script.exists_point_of_wordEscape`).
-/
import EditionSurvey.Package.Reading
import EditionSurvey.Proofs.Writing
import EditionSurvey.Script.Scanner

set_option autoImplicit false

namespace EditionSurvey

namespace Reader

/-! ## Data files -/

/-- The units of a data file: its characters, and inside the texts the numbers of the escapes. -/
def units : (quoted : Bool) → List Char → List Nat
  | _, [] => []
  | false, '"' :: rest => '"'.toNat :: units true rest
  | false, c :: rest => c.toNat :: units false rest
  | true, '"' :: rest => '"'.toNat :: units false rest
  | true, '\\' :: 'u' :: a :: b :: c :: d :: rest =>
      match hexNumber? a b c d with
      | some n => n :: units true rest
      | none => 'u'.toNat :: units true (a :: b :: c :: d :: rest)
  | true, '\\' :: c :: rest => ((escapedChar? c).getD c).toNat :: units true rest
  | true, c :: rest => c.toNat :: units true rest

/-- The characters that units stand for, if no half of a pair stands alone. -/
def charsOf? : List Nat → Option (List Char)
  | [] => some []
  | [n] => if isHighUnit n || isLowUnit n then none else some [Char.ofNat n]
  | n :: low :: rest =>
      if isHighUnit n then
        if isLowUnit low then (charsOf? rest).map (charOfPair n low :: ·) else none
      else if isLowUnit n then none
      else (charsOf? (low :: rest)).map (Char.ofNat n :: ·)

/-- Whether no half of a pair stands alone in a data file. -/
def paired (cs : List Char) : Bool := (charsOf? (units false cs)).isSome

example : paired "\"\\ud83d\\ude00\"".toList = true := by decide +kernel
example : paired "\"\\ud83d\\u0041\"".toList = false := by decide +kernel

section

variable {opening done cs left : List Char} {fuel n low : Nat} {rest : List Nat} {c : Char}
  {s : String} {chars : List Char}

theorem isHighUnit_toNat (c : Char) : isHighUnit c.toNat = false := by
  have hvalid := c.valid
  simp only [isHighUnit, Bool.and_eq_false_iff, decide_eq_false_iff_not]
  unfold Char.toNat
  unfold UInt32.isValidChar Nat.isValidChar at hvalid
  omega

theorem isLowUnit_toNat (c : Char) : isLowUnit c.toNat = false := by
  have hvalid := c.valid
  simp only [isLowUnit, Bool.and_eq_false_iff, decide_eq_false_iff_not]
  unfold Char.toNat
  unfold UInt32.isValidChar Nat.isValidChar at hvalid
  omega

/-- A unit that is no half stands for a character of its own. -/
theorem charsOf?_cons (hhigh : isHighUnit n = false) (hlow : isLowUnit n = false) :
    charsOf? (n :: rest) = (charsOf? rest).map (Char.ofNat n :: ·) := by
  cases rest with
  | nil => simp [charsOf?, hhigh, hlow]
  | cons next rest => simp [charsOf?, hhigh, hlow]

theorem charsOf?_char (c : Char) : charsOf? (c.toNat :: rest) = (charsOf? rest).map (c :: ·) := by
  rw [charsOf?_cons (isHighUnit_toNat c) (isLowUnit_toNat c), Char.ofNat_toNat]

/-- A first half is followed by a second one. -/
theorem exists_low_of_charsOf? (hhigh : isHighUnit n = true)
    (h : charsOf? (n :: rest) = some chars) :
    ∃ low behind others, rest = low :: behind ∧ isLowUnit low = true ∧
      charsOf? behind = some others ∧ chars = charOfPair n low :: others := by
  match rest with
  | [] => simp [charsOf?, hhigh] at h
  | low :: behind =>
      simp only [charsOf?, hhigh, if_true] at h
      split at h
      · next hlow =>
          obtain ⟨others, hothers, rfl⟩ := Option.map_eq_some_iff.mp h
          exact ⟨low, behind, others, rfl, hlow, hothers, rfl⟩
      · cases h

/-- Only an escape by number is a second half. -/
theorem exists_escape_of_units (h : units true cs = low :: rest) (hlow : isLowUnit low = true) :
    ∃ a b d e tail, cs = '\\' :: 'u' :: a :: b :: d :: e :: tail ∧
      hexNumber? a b d e = some low := by
  have hchar : ∀ c : Char, c.toNat ≠ low := by
    rintro c rfl
    rw [isLowUnit_toNat] at hlow
    cases hlow
  unfold units at h
  split at h
  · cases h
  · exact absurd (List.cons.inj h).1 (hchar _)
  · exact absurd (List.cons.inj h).1 (hchar _)
  · exact absurd (List.cons.inj h).1 (hchar _)
  · split at h
    · next hnumber =>
        obtain ⟨rfl, _⟩ := List.cons.inj h
        exact ⟨_, _, _, _, _, rfl, hnumber⟩
    · exact absurd (List.cons.inj h).1 (hchar _)
  · exact absurd (List.cons.inj h).1 (hchar _)
  · exact absurd (List.cons.inj h).1 (hchar _)

theorem charOfUnit_of_no_half (hhigh : isHighUnit n = false) (hlow : isLowUnit n = false) :
    charOfUnit n = Char.ofNat n := by
  simp only [isHighUnit, isLowUnit, Bool.and_eq_false_iff, decide_eq_false_iff_not] at hhigh hlow
  unfold charOfUnit
  rw [if_neg]
  simp only [Bool.and_eq_true, decide_eq_true_eq]
  omega

/-- Behind a first half the reader misses no second one. -/
theorem readLowUnit?_ne_none (hunits : units true cs = low :: rest) (hlow : isLowUnit low = true)
    (h : readText opening fuel done cs = .ok (s, left)) : readLowUnit? cs ≠ .ok none := by
  obtain ⟨a, b, d, e, tail, rfl, hnumber⟩ := exists_escape_of_units hunits hlow
  cases tail with
  | cons next tail => simp [readLowUnit?, hnumber, hlow]
  | nil =>
      -- an escape at the very end of a file is no unit, but then the text has no closing quote
      cases fuel with
      | zero => simp [readText, refuse] at h
      | succ fuel => simp [readText, readUnit, refuse] at h

section

variable {a b d e next : Char} {tail behind : List Char}

/-- A unit that is no half is read as its character. -/
theorem readUnit_of_no_half (hnumber : hexNumber? a b d e = some n) (hhigh : isHighUnit n = false)
    (hunit : readUnit (a :: b :: d :: e :: next :: tail) = .ok (c, behind))
    (hchars : charsOf? (n :: units true (next :: tail)) = some chars) :
    ∃ others, charsOf? (units true behind) = some others ∧ chars = c :: others := by
  simp only [readUnit, hnumber, hhigh, Bool.false_eq_true, if_false] at hunit
  obtain ⟨rfl, rfl⟩ := Prod.mk.inj (Except.ok.inj hunit)
  cases hlow : isLowUnit n with
  | true => cases hunits : units true (next :: tail) <;> simp [hunits, charsOf?, hhigh, hlow] at hchars
  | false =>
      rw [charsOf?_cons hhigh hlow] at hchars
      obtain ⟨others, hothers, rfl⟩ := Option.map_eq_some_iff.mp hchars
      exact ⟨others, hothers, by rw [charOfUnit_of_no_half hhigh hlow]⟩

/-- A first half is read with the second one behind it. -/
theorem readUnit_of_high (hnumber : hexNumber? a b d e = some n) (hhigh : isHighUnit n = true)
    (hunit : readUnit (a :: b :: d :: e :: next :: tail) = .ok (c, behind))
    (h : readText opening fuel done behind = .ok (s, left))
    (hchars : charsOf? (n :: units true (next :: tail)) = some chars) :
    ∃ others, charsOf? (units true behind) = some others ∧ chars = c :: others := by
  obtain ⟨low, _, others, hunits, hlow, hothers, rfl⟩ := exists_low_of_charsOf? hhigh hchars
  simp only [readUnit, hnumber, hhigh, if_true] at hunit
  rcases hread : readLowUnit? (next :: tail) with fault | _ | ⟨second, beyond⟩ <;>
    rw [hread] at hunit
  · cases hunit
  · obtain ⟨_, rfl⟩ := Prod.mk.inj (Except.ok.inj hunit)
    exact absurd hread (readLowUnit?_ne_none hunits hlow h)
  · obtain ⟨rfl, rfl⟩ := Prod.mk.inj (Except.ok.inj hunit)
    obtain ⟨_, _, _, _, _, _, heq, rfl, hsecond, _⟩ := exists_of_readLowUnit? hread
    rw [heq] at hunits
    simp only [units, hsecond] at hunits
    obtain ⟨rfl, rfl⟩ := List.cons.inj hunits
    exact ⟨others, hothers, rfl⟩

end

/-- An escape by number is read as the character that its units stand for. -/
theorem readUnit_of_paired {behind : List Char} (hunit : readUnit cs = .ok (c, behind))
    (h : readText opening fuel done behind = .ok (s, left))
    (hchars : charsOf? (units true ('\\' :: 'u' :: cs)) = some chars) :
    ∃ others, charsOf? (units true behind) = some others ∧ chars = c :: others := by
  obtain ⟨a, b, d, e, next, tail, rfl⟩ := exists_of_readUnit hunit
  cases hnumber : hexNumber? a b d e with
  | none => simp [readUnit, hnumber, refuse] at hunit
  | some n =>
      simp only [units, hnumber] at hchars
      cases hhigh : isHighUnit n with
      | true => exact readUnit_of_high hnumber hhigh hunit h hchars
      | false => exact readUnit_of_no_half hnumber hhigh hunit hchars

/-- Where no half of a pair stands alone, a text is read as the characters that its units stand
for, and the same is true of what follows it. -/
theorem readText_of_paired (h : readText opening fuel done cs = .ok (s, left))
    (hchars : charsOf? (units true cs) = some chars) :
    ∃ others, charsOf? (units false left) = some others ∧
      done.reverse ++ chars = s.toList ++ '"' :: others := by
  fun_induction readText opening fuel done cs generalizing chars with
  | case1 | case2 | case4 | case5 | case7 | case9 => cases h
  | case3 =>
      obtain ⟨rfl, rfl⟩ := Prod.mk.inj (Except.ok.inj h)
      rw [units, charsOf?_char] at hchars
      obtain ⟨others, hothers, rfl⟩ := Option.map_eq_some_iff.mp hchars
      exact ⟨others, hothers, by simp⟩
  | case6 fuel done rest c behind hunit ih =>
      obtain ⟨others, hothers, rfl⟩ := readUnit_of_paired hunit h hchars
      obtain ⟨more, hmore, heq⟩ := ih h hothers
      exact ⟨more, hmore, by simpa using heq⟩
  | case8 fuel done c rest hu e hescaped ih =>
      have hunits : units true ('\\' :: c :: rest) = e.toNat :: units true rest := by
        have hu : c ≠ 'u' := hu
        simp [units, hu, hescaped]
      rw [hunits, charsOf?_char] at hchars
      obtain ⟨others, hothers, rfl⟩ := Option.map_eq_some_iff.mp hchars
      obtain ⟨more, hmore, heq⟩ := ih h hothers
      exact ⟨more, hmore, by simpa using heq⟩
  | case10 fuel done c rest hquote hend _ hescape hcontrol ih =>
      have hbackslash := ne_backslash hend hescape
      have hunits : units true (c :: rest) = c.toNat :: units true rest := by
        simp [units, hbackslash]
      rw [hunits, charsOf?_char] at hchars
      obtain ⟨others, hothers, rfl⟩ := Option.map_eq_some_iff.mp hchars
      obtain ⟨more, hmore, heq⟩ := ih h hothers
      exact ⟨more, hmore, by simpa using heq⟩

end

end Reader

namespace Script

/-! ## Scripts -/

/-- The number that hexadecimal digits write behind one that is there. -/
def hexNumberBehind (value : Nat) (digits : List Char) : Nat :=
  digits.foldl (fun n d => n * 16 + (hexValue? d).getD 0) value

/-- The characters escape half of a pair by its number in braces.  This is the one way in which a
name in a script comes to hold half of a pair: of four digits the scanner asks that they are part
of a name. -/
def EscapesHalf (cs : List Char) : Prop :=
  ∃ before digits after, cs = before ++ '\\' :: 'u' :: '\x7b' :: (digits ++ '\x7d' :: after) ∧
    (∀ d ∈ digits, isHexDigit d = true) ∧
    0xD800 ≤ hexNumberBehind 0 digits ∧ hexNumberBehind 0 digits ≤ 0xDFFF

theorem not_escapesHalf {cs : List Char} (h : '\\' ∉ cs) : ¬EscapesHalf cs := by
  rintro ⟨before, digits, after, rfl, _⟩
  simp at h

theorem exists_of_bracedDigits {c after : Cursor} {value n : Nat} {cs : List Char}
    (h : bracedDigits c value cs = (n, some '\x7d', after)) :
    ∃ digits rest, cs = digits ++ '\x7d' :: rest ∧ (∀ d ∈ digits, isHexDigit d = true) ∧
      n = hexNumberBehind value digits := by
  induction cs generalizing c value with
  | nil => simp [bracedDigits] at h
  | cons d cs ih =>
      rw [bracedDigits] at h
      split at h
      · next v hv =>
          obtain ⟨digits, rest, rfl, hdigits, rfl⟩ := ih h
          refine ⟨d :: digits, rest, rfl, List.forall_mem_cons.mpr ⟨?_, hdigits⟩, ?_⟩
          · rw [isHexDigit, hv]
            rfl
          · rw [hexNumberBehind, hexNumberBehind, List.foldl_cons, hv]
            rfl
      · obtain ⟨rfl, hd, _⟩ : value = n ∧ d = '\x7d' ∧ c.next = after := by simpa using h
        exact ⟨[], cs, by rw [hd]; rfl, by simp, rfl⟩

/-- Where no half of a pair is escaped, a code point in braces is one of a character. -/
theorem isValidChar_of_bracedPoint {c after : Cursor} {point : Nat} {before : List Char}
    (h : c.bracedPoint = .ok (point, after))
    (hno : ¬EscapesHalf (before ++ '\\' :: 'u' :: '\x7b' :: c.rest)) : point.isValidChar := by
  unfold Cursor.bracedPoint at h
  split at h
  · cases h
  · split at h
    · next value behind hbraced =>
        split at h
        · next hlimit =>
            obtain ⟨rfl, rfl⟩ := Prod.mk.inj (Except.ok.inj h)
            obtain ⟨digits, rest, hrest, hdigits, rfl⟩ := exists_of_bracedDigits hbraced
            by_contra hinvalid
            unfold Nat.isValidChar at hinvalid
            exact hno ⟨before, digits, rest, by rw [hrest], hdigits, by omega, by omega⟩
        · cases h
    · cases h

/-- No half of a pair is in a set whose intervals leave the halves out. -/
theorem isValidChar_of_contains (set : Text.CodePoints) {n : Nat}
    (hset : ∀ interval ∈ set, interval.2 < 0xD800 ∨ 0xDFFF < interval.1 ∧ interval.2 < 0x110000)
    (h : set.contains n = true) : n.isValidChar := by
  obtain ⟨low, high, hmem, hlow, hhigh⟩ := (Text.CodePoints.contains_iff set n).mp h
  have hinterval := hset _ hmem
  unfold Nat.isValidChar
  omega

/-- No half of a pair is part of a name. -/
theorem isValidChar_of_isIdentifierPartPoint {n : Nat} (h : isIdentifierPartPoint n = true) :
    n.isValidChar := by
  have hletters := isValidChar_of_contains Text.letters (n := n) (by decide +kernel)
  have hmarks := isValidChar_of_contains Text.combiningMarks (n := n) (by decide +kernel)
  have hdigits := isValidChar_of_contains Text.decimalDigits (n := n) (by decide +kernel)
  have hconnectors := isValidChar_of_contains Text.connectors (n := n) (by decide +kernel)
  have hstarts := isValidChar_of_contains extraIdentifierStarts (n := n) (by decide)
  have hparts := isValidChar_of_contains extraIdentifierParts (n := n) (by decide)
  unfold isIdentifierPartPoint isIdentifierStartPoint at h
  by_cases hsmall : n < 0x80
  · exact .inl (by omega)
  · simp only [hsmall, if_false, Bool.or_eq_true] at h
    obtain (h | h) | ((h | h) | h) | h := h
    · exact hletters h
    · exact hstarts h
    · exact hmarks h
    · exact hdigits h
    · exact hconnectors h
    · exact hparts h

theorem eq_cons_of_peek {c : Cursor} {d : Char} (hd : d ≠ '\x00') (h : c.peek = d) :
    c.rest = d :: c.next.rest := by
  unfold Cursor.peek at h
  unfold Cursor.next
  cases hrest : c.rest with
  | nil => exact absurd (by simpa [hrest] using h) hd.symm
  | cons first rest => rw [← h, hrest]; rfl

/-- Where no half of a pair is escaped, an escape in a name is read as the character that its
number is the one of. -/
theorem exists_point_of_wordEscape {c after : Cursor} {admits : Nat → Bool} {e : Char}
    {before : List Char} (h : c.wordEscape admits = .ok (e, after))
    (hadmits : ∀ n, admits n = true → isIdentifierPartPoint n = true)
    (hno : ¬EscapesHalf (before ++ '\\' :: c.rest)) :
    ∃ point, point.isValidChar ∧ e = Char.ofNat point := by
  have hchar : ∀ {point : Nat}, point.isValidChar → charOfPoint point = e →
      ∃ point, point.isValidChar ∧ e = Char.ofNat point := fun hvalid heq =>
    ⟨_, hvalid, by rw [← heq, charOfPoint, if_pos hvalid]⟩
  unfold Cursor.wordEscape at h
  split at h
  · cases h
  · next hu =>
      split at h
      · next hbrace =>
          cases hpoint : c.next.next.bracedPoint with
          | error fault => simp [hpoint, bind, Except.bind] at h
          | ok read =>
              obtain ⟨point, behind⟩ := read
              obtain ⟨heq, rfl⟩ : charOfPoint point = e ∧ behind = after := by
                simpa [hpoint, bind, Except.bind, pure, Except.pure] using h
              have hrest : c.rest = 'u' :: '\x7b' :: c.next.next.rest := by
                rw [eq_cons_of_peek (by decide) (not_not.mp hu),
                  eq_cons_of_peek (c := c.next) (by decide) hbrace]
              exact hchar (isValidChar_of_bracedPoint hpoint (hrest ▸ hno)) heq
      · split at h
        · split at h
          · next hpoint =>
              obtain ⟨heq, rfl⟩ := Prod.mk.inj (Except.ok.inj h)
              have hpart := hadmits _ (Bool.and_eq_true_iff.mp hpoint).2
              exact hchar (isValidChar_of_isIdentifierPartPoint hpart) heq
          · cases h
        · cases h

end Script

/-! ## File trees -/

/-- Whether no half of a pair stands alone in the bytes of a manifest, if they are a text. -/
def pairedBytes (bytes : List UInt8) : Bool :=
  match Text.decode? bytes with
  | .ok text => Reader.paired (Text.unifyLineEnds text)
  | .error _ => true

namespace FileTree

/-- In no manifest of the tree half of a pair stands alone. -/
def ManifestsPaired (tree : FileTree) : Prop :=
  ∀ bytes ∈ tree.top.contentsNamed manifestName, pairedBytes bytes = true

instance (tree : FileTree) : Decidable tree.ManifestsPaired :=
  inferInstanceAs (Decidable (∀ bytes ∈ tree.top.contentsNamed manifestName, _))

/-- No file of the tree escapes half of a pair if it is read as a script. -/
def ScriptsPaired (tree : FileTree) : Prop :=
  ∀ name, ∀ bytes ∈ tree.top.contentsNamed name, ¬Script.EscapesHalf (scriptText bytes).toList

end FileTree

end EditionSurvey
