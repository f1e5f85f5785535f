/-
  Proofs/Scanning.lean --- where the tokens of a script stand in its text.

  Every reader of the scanner moves its cursor forward over the text it stands in and changes
  nothing else of it (`Cursor.Reaches`), so a token spans what was moved over, and a punctuator is
  written at its place as it is (`Scanner.Lexes`).  What is skipped before a token is a gap of the
  text (`IsGap`): tokens and gaps take turns from the start of the script (`Tiled`).
-/
import EditionSurvey.Script.Scanner

set_option autoImplicit false

namespace EditionSurvey.Script

/-! ## Cursors -/

/-- The place `stop` lies some number of characters behind the place `start`, in one text. -/
def Cursor.Reaches (start stop : Cursor) : Prop :=
  ∃ n, stop.rest = start.rest.drop n ∧ stop.offset = start.offset + n

namespace Cursor.Reaches

variable {a b c : Cursor}

theorem refl (c : Cursor) : c.Reaches c := ⟨0, by simp⟩

theorem trans (hab : a.Reaches b) (hbc : b.Reaches c) : a.Reaches c := by
  obtain ⟨n, hrest, hoffset⟩ := hab
  obtain ⟨m, hrest', hoffset'⟩ := hbc
  refine ⟨n + m, ?_, ?_⟩
  · rw [hrest', hrest, List.drop_drop]
  · rw [hoffset', hoffset, Nat.add_assoc]

theorem le (h : a.Reaches b) : a.offset ≤ b.offset := by
  obtain ⟨n, -, h⟩ := h
  omega

theorem rest_eq {source : List Char} (h : a.Reaches b) (ha : a.rest = source.drop a.offset) :
    b.rest = source.drop b.offset := by
  obtain ⟨n, hrest, hoffset⟩ := h
  rw [hrest, ha, hoffset, List.drop_drop]

theorem skip (h : a.Reaches b) (n : Nat) : a.Reaches (b.skip n) :=
  h.trans ⟨n, rfl, rfl⟩

theorem next (h : a.Reaches b) : a.Reaches b.next :=
  h.trans ⟨1, by simp [Cursor.next], rfl⟩

theorem newLine (h : a.Reaches b) : a.Reaches b.newLine := h

theorem afterTerminator (h : a.Reaches b) (d : Char) : a.Reaches (b.afterTerminator d) := by
  unfold Cursor.afterTerminator
  split
  · exact h.next.newLine
  · exact h.newLine

/-- A cursor that passes the characters of a kind is moved forward, by as many as there are. -/
theorem skipWhile (h : a.Reaches b) (p : Char → Bool) : a.Reaches (b.skipWhile p) := by
  have hgo : ∀ rest offset,
      Cursor.Reaches { b with rest, offset } (Cursor.skipWhile.go p b rest offset) := by
    intro rest
    induction rest with
    | nil => exact fun offset => refl _
    | cons d rest ih =>
        intro offset
        rw [Cursor.skipWhile.go]
        split
        · exact trans ⟨1, rfl, rfl⟩ (ih (offset + 1))
        · exact refl _
  exact h.trans (hgo b.rest b.offset)

end Cursor.Reaches

/-! ## Blanks and comments -/

theorem exists_drop_of_step {text rest : List Char} {offset width : Nat} {c : Cursor}
    (h : ∃ n, c.rest = rest.drop n ∧ c.offset = offset + width + n)
    (hstep : text.drop width = rest) :
    ∃ n, c.rest = text.drop n ∧ c.offset = offset + n := by
  obtain ⟨n, hrest, hoffset⟩ := h
  exact ⟨width + n, by rw [hrest, ← hstep, List.drop_drop], by omega⟩

theorem exists_drop_of_skipGap {gap : Gap} {text : List Char} {offset line lineStart : Nat}
    {c : Cursor} (h : skipGap gap text offset line lineStart = .ok c) :
    ∃ n, c.rest = text.drop n ∧ c.offset = offset + n := by
  fun_induction skipGap gap text offset line lineStart with
  | case1 => cases h
  | case2 | case9 | case11 =>
      cases h
      exact ⟨0, rfl, rfl⟩
  | _ =>
      rename_i ih
      exact exists_drop_of_step (ih h) rfl

/-- Blanks and comments are passed, and nothing else of the text is changed. -/
theorem Cursor.reaches_skipBlanks {c after : Cursor} (h : c.skipBlanks = .ok after) :
    c.Reaches after :=
  exists_drop_of_skipGap h

/-! ## Escapes -/

namespace Cursor.Reaches

variable {a b c : Cursor}

theorem hexDigits (count : Nat) : ∀ {b : Cursor} (value : Nat), a.Reaches b →
    a.Reaches (b.hexDigits count value).2 := by
  induction count with
  | zero => exact fun value h => h
  | succ count ih =>
      intro b value h
      rw [Cursor.hexDigits]
      split
      · exact ih _ h.next
      · exact h

theorem bracedDigits (digits : List Char) : ∀ {b : Cursor} (value : Nat), a.Reaches b →
    a.Reaches (bracedDigits b value digits).2.2 := by
  induction digits with
  | nil => exact fun value h => h
  | cons d digits ih =>
      intro b value h
      rw [Script.bracedDigits]
      split
      · exact ih _ h.next
      · exact h.next

theorem bracedPoint (h : a.Reaches b) {point : Nat} (hpoint : b.bracedPoint = .ok (point, c)) :
    a.Reaches c := by
  have hdigits := h.bracedDigits b.rest 0
  unfold Cursor.bracedPoint at hpoint
  split at hpoint
  · cases hpoint
  · split at hpoint
    · rename_i heq
      split at hpoint
      · cases hpoint
        rwa [heq] at hdigits
      · cases hpoint
    · cases hpoint

/-- An escape in a word is read forward, with four digits or with braces. -/
theorem wordEscape (h : a.Reaches b) {admits : Nat → Bool} {d : Char}
    (hescape : b.wordEscape admits = .ok (d, c)) : a.Reaches c := by
  unfold Cursor.wordEscape at hescape
  split at hescape
  · cases hescape
  split at hescape
  · cases hpoint : b.next.next.bracedPoint with
    | error => rw [hpoint] at hescape; cases hescape
    | ok found =>
        rw [hpoint] at hescape
        cases hescape
        exact h.next.next.bracedPoint hpoint
  · have hdigits := h.next.hexDigits 4 0
    split at hescape
    · rename_i heq
      split at hescape
      · cases hescape
        rwa [heq] at hdigits
      · cases hescape
    · cases hescape

end Cursor.Reaches

/-! ## Tokens -/

theorem bind_eq_ok_iff {ε α β : Type} {first : Except ε α} {next : α → Except ε β} {b : β} :
    first >>= next = .ok b ↔ ∃ a, first = .ok a ∧ next a = .ok b := by
  cases first <;> simp [bind, Except.bind]

/-- The scanner reads the token and goes on behind it.  A punctuator is written as it is. -/
structure Scanner.Lexes (s : Scanner) (t : Token) (after : Scanner) : Prop where
  start : t.start = s.cursor.offset
  stop : t.stop = after.cursor.offset
  reaches : s.cursor.Reaches after.cursor
  mark : ∀ mark, t.lexeme = .punctuator mark →
    mark ≠ "" ∧ mark.toList <+: s.cursor.rest ∧ t.stop = t.start + mark.length

/-- A token that is no punctuator, from the place its scanner has reached. -/
theorem Scanner.Lexes.of_reaches {s : Scanner} {after : Cursor} {braces : List Brace}
    {lexeme : Lexeme} (h : s.cursor.Reaches after) (hmark : ∀ mark, lexeme ≠ .punctuator mark) :
    s.Lexes (s.cursor.token after lexeme) { s with cursor := after, braces } where
  start := rfl
  stop := rfl
  reaches := h
  mark mark hlexeme := absurd hlexeme (hmark mark)

theorem Scanner.Lexes.start_le_stop {s after : Scanner} {t : Token} (h : s.Lexes t after) :
    t.start ≤ t.stop := by
  rw [h.start, h.stop]
  exact h.reaches.le

theorem reaches_of_escapedWord {a : Cursor} (fuel : Nat) :
    ∀ {b c : Cursor} {reversed letters : List Char},
      a.Reaches b → escapedWord fuel b reversed = .ok (letters, c) → a.Reaches c := by
  induction fuel with
  | zero =>
      intro b c reversed letters h hword
      cases hword
      exact h
  | succ fuel ih =>
      intro b c reversed letters h hword
      rw [escapedWord] at hword
      split at hword
      · cases hword
        exact h
      split at hword
      · obtain ⟨⟨e, after⟩, hescape, hword⟩ := bind_eq_ok_iff.mp hword
        exact ih (h.next.wordEscape hescape) hword
      split at hword
      · exact ih h.next hword
      · cases hword
        exact h

theorem Scanner.reaches_wordLetters {s : Scanner} {letters : List Char} {after : Cursor}
    (h : s.wordLetters = .ok (letters, after)) : s.cursor.Reaches after := by
  have hstart := Cursor.Reaches.refl s.cursor
  unfold Scanner.wordLetters at h
  dsimp only at h
  split at h
  · obtain ⟨⟨e, behind⟩, hescape, h⟩ := bind_eq_ok_iff.mp h
    exact reaches_of_escapedWord _ (hstart.next.wordEscape hescape) h
  split at h
  · exact reaches_of_escapedWord _ hstart h
  · cases h
    exact hstart.next.skipWhile _

/-- The lexeme of a word is no punctuator and no regular expression. -/
theorem Lexeme.ofWord_cases (word : String) :
    (∀ mark, Lexeme.ofWord word ≠ .punctuator mark) ∧
      ∀ spelling flags, Lexeme.ofWord word ≠ .pattern spelling flags := by
  unfold Lexeme.ofWord
  split
  · simp
  split
  · simp
  split <;> simp

/-- The token is no regular expression. -/
def Token.NoPattern (t : Token) : Prop := ∀ spelling flags, t.lexeme ≠ .pattern spelling flags

/-- A word is read from the place of the scanner to the place that it goes on from, escaped or not. -/
theorem Scanner.lexes_word {s after : Scanner} {t : Token} (h : s.word = .ok (t, after)) :
    s.Lexes t after ∧ t.NoPattern := by
  obtain ⟨⟨letters, c⟩, hletters, h⟩ := bind_eq_ok_iff.mp h
  have hreaches := Scanner.reaches_wordLetters hletters
  have hlexeme : ∀ lexeme : Lexeme,
      lexeme = (if letters.length = 1 then .identifier (String.ofList letters)
        else Lexeme.ofWord (String.ofList letters)) →
      (∀ mark, lexeme ≠ .punctuator mark) ∧ ∀ spelling flags, lexeme ≠ .pattern spelling flags := by
    rintro lexeme rfl
    split
    · simp
    · exact Lexeme.ofWord_cases _
  obtain ⟨hmark, hpattern⟩ := hlexeme _ rfl
  dsimp only at h
  split at h
  · cases h
    exact ⟨.of_reaches hreaches hmark, hpattern⟩
  split at h
  · cases h
  · cases h
    exact ⟨.of_reaches hreaches hmark, hpattern⟩

/-- The mark that is read is what the text has at this place. -/
theorem Cursor.punctuator?_spec {c : Cursor} {mark : String} (h : c.punctuator? = some mark) :
    mark ≠ "" ∧ mark.toList <+: c.rest := by
  have hsingle : ∀ chars : List Char, '\x00' ∉ chars → chars.contains c.peek = true →
      (String.singleton c.peek).toList <+: c.rest := by
    intro chars hnull hmem
    unfold Cursor.peek at hmem ⊢
    cases hrest : c.rest with
    | nil =>
        rw [hrest] at hmem
        exact absurd (by simpa using hmem) hnull
    | cons d rest => simp
  have hsome : ∀ text, c.startsWith text = true → text.toList <+: c.rest :=
    fun text htext => List.isPrefixOf_iff_prefix.mp htext
  unfold Cursor.punctuator? at h
  dsimp only at h
  split at h
  · rename_i hmem
    cases h
    exact ⟨by simp, hsingle _ (by decide) hmem⟩
  split at h
  · rename_i hdot
    split at h
    · rename_i hdots
      cases h
      exact ⟨by decide, hsome _ hdots⟩
    · cases h
      refine ⟨by decide, ?_⟩
      have := hsingle ['.'] (by decide) (by simp [hdot])
      rwa [hdot] at this
  split at h
  · rename_i hfind
    cases h
    refine ⟨?_, hsome _ (List.find?_some hfind)⟩
    have := List.mem_of_find?_eq_some hfind
    rintro rfl
    exact absurd this (by decide)
  split at h
  · rename_i hmem
    cases h
    exact ⟨by simp, hsingle _ (by decide) hmem⟩
  · cases h

theorem Scanner.lexes_punctuator {s after : Scanner} {t : Token}
    (h : s.punctuator = .ok (t, after)) : s.Lexes t after ∧ t.NoPattern := by
  unfold Scanner.punctuator at h
  split at h
  · cases h
  · rename_i mark hmark
    cases h
    refine ⟨⟨rfl, rfl, (Cursor.Reaches.refl _).skip _, ?_⟩, by simp [Token.NoPattern, Cursor.token]⟩
    intro other hother
    obtain rfl : mark = other := by simpa [Cursor.token] using hother
    exact ⟨(Cursor.punctuator?_spec hmark).1, (Cursor.punctuator?_spec hmark).2, rfl⟩

/-! ## Numbers -/

theorem Cursor.eq_of_endNumber {c after : Cursor} {digitsToo : Bool}
    (h : c.endNumber digitsToo = .ok after) : c = after := by
  unfold Cursor.endNumber at h
  split at h
  · cases h
  · exact Except.ok.inj h

namespace Cursor.Reaches

variable {a b c : Cursor}

theorem endNumber (h : a.Reaches b) {digitsToo : Bool} (hend : b.endNumber digitsToo = .ok c) :
    a.Reaches c := Cursor.eq_of_endNumber hend ▸ h

theorem someDigits (h : a.Reaches b) {isDigit : Char → Bool}
    (hdigits : b.someDigits isDigit = .ok c) : a.Reaches c := by
  unfold Cursor.someDigits at hdigits
  dsimp only at hdigits
  split at hdigits
  · cases hdigits
  · cases hdigits
    exact h.skipWhile _

theorem fraction (h : a.Reaches b) (hfraction : b.fraction = .ok c) : a.Reaches c := by
  have hpoint : a.Reaches (if b.peek = '.' then b.next.skipWhile isDecimalDigit else b) := by
    split
    · exact h.next.skipWhile _
    · exact h
  unfold Cursor.fraction at hfraction
  dsimp only at hfraction
  generalize (if b.peek = '.' then b.next.skipWhile isDecimalDigit else b) = p at hpoint hfraction
  split at hfraction
  · have hsign : a.Reaches
        (if p.next.peek = '+' || p.next.peek = '-' then p.next.next else p.next) := by
      split
      · exact hpoint.next.next
      · exact hpoint.next
    generalize (if p.next.peek = '+' || p.next.peek = '-' then p.next.next else p.next) = q
      at hsign hfraction
    split at hfraction
    · exact (hsign.skipWhile _).endNumber hfraction
    · cases hfraction
  · exact hpoint.endNumber hfraction

theorem prefixedNumber (h : a.Reaches b) {isDigit : Char → Bool} {digitsToo octal : Bool}
    (hnumber : (do return (← (← b.someDigits isDigit).endNumber digitsToo, false)) =
      Except.ok (c, octal)) : a.Reaches c := by
  obtain ⟨stop, hstop, hnumber⟩ := bind_eq_ok_iff.mp hnumber
  obtain ⟨after, hafter, hnumber⟩ := bind_eq_ok_iff.mp hnumber
  cases hnumber
  exact (h.someDigits hstop).endNumber hafter

theorem decimalNumber (h : a.Reaches b) {octal : Bool}
    (hnumber : (do return (← (b.skipWhile isDecimalDigit).fraction, false)) =
      Except.ok (c, octal)) : a.Reaches c := by
  obtain ⟨after, hafter, hnumber⟩ := bind_eq_ok_iff.mp hnumber
  cases hnumber
  exact (h.skipWhile _).fraction hafter

theorem number (h : a.Reaches b) {octal : Bool} (hnumber : b.number = .ok (c, octal)) :
    a.Reaches c := by
  unfold Cursor.number at hnumber
  dsimp only at hnumber
  split at hnumber
  · split at hnumber
    · exact h.next.next.prefixedNumber hnumber
    split at hnumber
    · exact h.next.next.prefixedNumber hnumber
    split at hnumber
    · exact h.next.next.prefixedNumber hnumber
    split at hnumber
    · obtain ⟨after, hafter, hnumber⟩ := bind_eq_ok_iff.mp hnumber
      cases hnumber
      exact (h.next.skipWhile _).endNumber hafter
    · exact h.decimalNumber hnumber
  · exact h.decimalNumber hnumber

end Cursor.Reaches

/-- A number is read from the place of the scanner on, whatever its form. -/
theorem Scanner.lexes_number {s after : Scanner} {t : Token} (h : s.number = .ok (t, after)) :
    s.Lexes t after ∧ t.NoPattern := by
  obtain ⟨⟨c, octal⟩, hnumber, h⟩ := bind_eq_ok_iff.mp h
  cases h
  exact ⟨.of_reaches ((Cursor.Reaches.refl _).number hnumber) (by simp),
    by simp [Token.NoPattern, Cursor.token]⟩

/-! ## Strings -/

namespace Cursor.Reaches

variable {a b c : Cursor}

theorem octalEscape (h : a.Reaches b) (first : Char) : a.Reaches (b.octalEscape first).2.2 := by
  unfold Cursor.octalEscape
  dsimp only
  split
  · split
    · exact h.next.next
    · exact h.next
  · exact h

theorem pointEscape (h : a.Reaches b) {d : Char} (hescape : b.pointEscape = .ok (d, c)) :
    a.Reaches c := by
  unfold Cursor.pointEscape at hescape
  split at hescape
  · obtain ⟨⟨point, after⟩, hpoint, hescape⟩ := bind_eq_ok_iff.mp hescape
    cases hescape
    exact h.next.bracedPoint hpoint
  · have hdigits := h.hexDigits 4 0
    split at hescape
    · rename_i heq
      cases hescape
      rwa [heq] at hdigits
    · cases hescape

theorem byteEscape (h : a.Reaches b) {d : Char} (hescape : b.byteEscape = .ok (d, c)) :
    a.Reaches c := by
  have hdigits := h.hexDigits 2 0
  unfold Cursor.byteEscape at hescape
  split at hescape
  · rename_i heq
    cases hescape
    rwa [heq] at hdigits
  · cases hescape

end Cursor.Reaches

/-- The characters and escapes of a string are read forward, up to its closing quote. -/
theorem reaches_of_stringText {a : Cursor} {quote : Char} (fuel : Nat) :
    ∀ {b c : Cursor} {text read : StringText} {closed : Bool},
      a.Reaches b → stringText quote fuel b text = .ok (closed, read, c) → a.Reaches c := by
  induction fuel with
  | zero =>
      intro b c text read closed h hread
      cases hread
      exact h
  | succ fuel ih =>
      intro b c text read closed h hread
      rw [stringText] at hread
      split at hread
      · cases hread
        exact h
      dsimp only at hread
      split at hread
      · cases hread
        exact h.next
      split at hread
      · split at hread
        · exact ih (h.next.next.afterTerminator _) hread
        split at hread
        · obtain ⟨⟨e, after⟩, hescape, hread⟩ := bind_eq_ok_iff.mp hread
          exact ih (h.next.next.pointEscape hescape) hread
        split at hread
        · obtain ⟨⟨e, after⟩, hescape, hread⟩ := bind_eq_ok_iff.mp hread
          exact ih (h.next.next.byteEscape hescape) hread
        split at hread
        · cases hread
        split at hread
        · exact ih (h.next.next.octalEscape _) hread
        · exact ih h.next.next hread
      split at hread
      · cases hread
        exact h.next
      · exact ih h.next hread

theorem Scanner.lexes_string {s after : Scanner} {t : Token} (h : s.string = .ok (t, after)) :
    s.Lexes t after ∧ t.NoPattern := by
  obtain ⟨⟨closed, text, c⟩, htext, h⟩ := bind_eq_ok_iff.mp h
  have hreaches := reaches_of_stringText s.size (Cursor.Reaches.refl s.cursor).next htext
  dsimp only at h
  split at h
  · cases h
  · cases h
    exact ⟨.of_reaches hreaches (by simp), by simp [Token.NoPattern, Cursor.token]⟩

/-! ## Templates -/

theorem Cursor.Reaches.templateEscape {a b c : Cursor} (h : a.Reaches b)
    (hescape : b.templateEscape = .ok c) : a.Reaches c := by
  unfold Cursor.templateEscape at hescape
  dsimp only at hescape
  split at hescape
  · cases hescape
    exact h.next.afterTerminator _
  split at hescape
  · split at hescape
    · obtain ⟨⟨point, after⟩, hpoint, hescape⟩ := bind_eq_ok_iff.mp hescape
      cases hescape
      exact h.next.next.bracedPoint hpoint
    · have hdigits := h.next.hexDigits 4 0
      split at hescape
      · rename_i heq
        cases hescape
        rwa [heq] at hdigits
      · cases hescape
        exact h.next
  split at hescape
  · obtain ⟨⟨d, after⟩, hbyte, hescape⟩ := bind_eq_ok_iff.mp hescape
    cases hescape
    exact h.next.byteEscape hbyte
  split at hescape
  · split at hescape
    · cases hescape
    · cases hescape
      exact h.next
  split at hescape
  · cases hescape
  · cases hescape
    exact h.next

theorem reaches_of_templateText {a : Cursor} (fuel : Nat) :
    ∀ {b c : Cursor} {ending : TemplateEnd},
      a.Reaches b → templateText fuel b = .ok (ending, c) → a.Reaches c := by
  induction fuel with
  | zero =>
      intro b c ending h hread
      cases hread
  | succ fuel ih =>
      intro b c ending h hread
      rw [templateText] at hread
      split at hread
      · cases hread
      dsimp only at hread
      split at hread
      · cases hread
        exact h.next
      split at hread
      · cases hread
        exact h.next.next
      split at hread
      · obtain ⟨after, hescape, hread⟩ := bind_eq_ok_iff.mp hread
        exact ih (h.next.templateEscape hescape) hread
      split at hread
      · exact ih (h.next.afterTerminator _) hread
      · exact ih h.next hread

/-- A piece of a template is read from its mark to the next one. -/
theorem Scanner.lexes_template {s after : Scanner} {t : Token} (h : s.template = .ok (t, after)) :
    s.Lexes t after ∧ t.NoPattern := by
  obtain ⟨⟨ending, c⟩, htext, h⟩ := bind_eq_ok_iff.mp h
  have hreaches := reaches_of_templateText _ (Cursor.Reaches.refl s.cursor).next htext
  cases h
  exact ⟨.of_reaches hreaches (by simp), by simp [Token.NoPattern, Cursor.token]⟩

/-! ## Regular expressions -/

theorem reaches_of_patternText {a : Cursor} (fuel : Nat) :
    ∀ {b c : Cursor} {bracket : Bool},
      a.Reaches b → patternText fuel bracket b = .ok c → a.Reaches c := by
  induction fuel with
  | zero =>
      intro b c bracket h hread
      cases hread
  | succ fuel ih =>
      intro b c bracket h hread
      rw [patternText] at hread
      split at hread
      · cases hread
      dsimp only at hread
      split at hread
      · split at hread
        · cases hread
        · exact ih h.next.next hread
      split at hread
      · cases hread
      split at hread
      · exact ih h.next hread
      split at hread
      · cases hread
        exact h.next
      · exact ih h.next hread

theorem Cursor.Reaches.patternFlags {a b c : Cursor} (h : a.Reaches b)
    (hflags : b.patternFlags = .ok c) : a.Reaches c := by
  unfold Cursor.patternFlags at hflags
  dsimp only at hflags
  split at hflags
  · split at hflags
    · cases hflags
      exact (h.skipWhile _).next
    split at hflags
    · split at hflags <;> cases hflags
    · cases hflags
  · cases hflags
    exact h.skipWhile _

/-- A regular expression is read from its first slash to its last flag. -/
theorem Scanner.lexes_pattern {s after : Scanner} {t : Token} (h : s.pattern = .ok (t, after)) :
    s.Lexes t after := by
  obtain ⟨body, hbody, h⟩ := bind_eq_ok_iff.mp h
  obtain ⟨c, hflags, h⟩ := bind_eq_ok_iff.mp h
  have hreaches :=
    (reaches_of_patternText _ (Cursor.Reaches.refl s.cursor).next hbody).patternFlags hflags
  dsimp only at h
  split at h
  · cases h
  · cases h
    exact .of_reaches hreaches (by simp)

/-! ## Any token -/

/-- The scanner reads a token from its place on; only the parser asks for a regular expression. -/
theorem Scanner.lexes_lex {s after : Scanner} {t : Token} (h : s.lex = .ok (t, after)) :
    s.Lexes t after ∧ t.NoPattern := by
  unfold Scanner.lex at h
  dsimp only at h
  split at h
  · cases h
    exact ⟨.of_reaches (Cursor.Reaches.refl _) (by simp), by simp [Token.NoPattern, Cursor.token]⟩
  split at h
  · exact Scanner.lexes_word h
  split at h
  · exact Scanner.lexes_string h
  split at h
  · exact Scanner.lexes_number h
  split at h
  · exact Scanner.lexes_template h
  · exact Scanner.lexes_punctuator h

/-! ## Tokens and gaps -/

/-- Nothing but blanks and comments stands between the two offsets, as the scanner skips them from
the first one on. -/
def IsGap (source : List Char) (start stop : Nat) : Prop :=
  ∃ line lineStart after,
    skipGap (.blank (start = 0)) (source.drop start) start line lineStart = .ok after ∧
      after.offset = stop

theorem IsGap.le {source : List Char} {start stop : Nat} (h : IsGap source start stop) :
    start ≤ stop := by
  obtain ⟨line, lineStart, after, hskip, rfl⟩ := h
  obtain ⟨n, -, hoffset⟩ := exists_drop_of_skipGap hskip
  omega

/-- From the offset on, gaps and the tokens take turns. -/
def Tiled (source : List Char) : Nat → List Token → Prop
  | _, [] => True
  | start, t :: rest => IsGap source start t.start ∧ t.start ≤ t.stop ∧ Tiled source t.stop rest

/-- A punctuator is written at its place as it is. -/
def Token.Spelled (source : List Char) (t : Token) : Prop :=
  ∀ mark, t.lexeme = .punctuator mark →
    mark ≠ "" ∧ mark.toList <+: source.drop t.start ∧ t.stop = t.start + mark.length

theorem Scanner.Lexes.spelled {source : List Char} {s after : Scanner} {t : Token}
    (h : s.Lexes t after) (hs : s.cursor.rest = source.drop s.cursor.offset) : t.Spelled source := by
  intro mark hmark
  rw [h.start, ← hs, ← h.start]
  exact h.mark mark hmark

theorem Tiled.concat {source : List Char} {last next : Token}
    (hgap : IsGap source last.stop next.start) (hnext : next.start ≤ next.stop) :
    ∀ {tokens : List Token} {start : Nat},
    Tiled source start (tokens ++ [last]) → Tiled source start (tokens ++ [last] ++ [next])
  | [], _, ⟨hlast, hspan, _⟩ => ⟨hlast, hspan, hgap, hnext, trivial⟩
  | _ :: _, _, ⟨ht, hspan, hrest⟩ => ⟨ht, hspan, hrest.concat hgap hnext⟩

theorem Tiled.replaceLast {source : List Char} {t t' : Token} (hstart : t'.start = t.start)
    (hspan : t'.start ≤ t'.stop) :
    ∀ {tokens : List Token} {start : Nat},
      Tiled source start (tokens ++ [t]) → Tiled source start (tokens ++ [t'])
  | [], _, ⟨hgap, _, _⟩ => ⟨hstart ▸ hgap, hspan, trivial⟩
  | _ :: _, _, ⟨hgap, hspan', hrest⟩ => ⟨hgap, hspan', hrest.replaceLast hstart hspan⟩

end EditionSurvey.Script
