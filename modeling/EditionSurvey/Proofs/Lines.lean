/-
  Proofs/Lines.lean --- on which line the scanner stands, and where on it.

  A cursor counts lines while it moves.  Every reader of the scanner moves it over line ends one by
  one, so that a cursor knows its line and the start of its line (`Cursor.On`), and the end of every
  token is on the line that the token says (`Token.Stands`).  Where a reader fails, its error is on
  the line of a cursor, with a column from one (`Misread`).
-/
import EditionSurvey.Proofs.Scanning

set_option autoImplicit false

namespace EditionSurvey.Script

/-! ## Lines of a text -/

/-- Whether the character at the offset ends its line.  A carriage return with a line feed behind it
leaves that to the line feed. -/
def endsLine (text : List Char) (offset : Nat) : Bool :=
  match text.drop offset with
  | '\r' :: '\n' :: _ => false
  | c :: _ => isLineTerminator c
  | [] => false

/-- The offset at which the line of an offset starts. -/
def lineStartAt (text : List Char) : Nat → Nat
  | 0 => 0
  | offset + 1 => if endsLine text offset then offset + 1 else lineStartAt text offset

/-- The line of an offset, from one. -/
def lineAt (text : List Char) : Nat → Nat
  | 0 => 1
  | offset + 1 => if endsLine text offset then lineAt text offset + 1 else lineAt text offset

/-- The column of an offset, from zero. -/
def columnAt (text : List Char) (offset : Nat) : Int := (offset : Int) - lineStartAt text offset

section

variable {text : List Char}

/-- From the start of a line up to an offset on it, everything is on that line. -/
theorem same_line {start stop : Nat} (hle : start ≤ stop) (hstart : lineStartAt text stop ≤ start) :
    lineStartAt text start = lineStartAt text stop ∧ lineAt text start = lineAt text stop := by
  induction stop with
  | zero => exact ⟨by rw [Nat.le_zero.mp hle], by rw [Nat.le_zero.mp hle]⟩
  | succ stop ih =>
      obtain rfl | hlt := Nat.eq_or_lt_of_le hle
      · exact ⟨rfl, rfl⟩
      · rw [lineStartAt] at hstart ⊢
        rw [lineAt]
        split at hstart
        · omega
        · next hends =>
            rw [if_neg hends, if_neg hends]
            exact ih (Nat.le_of_lt_succ hlt) hstart

/-- A test that line ends fail. -/
def SparesLineEnds (test : Char → Bool) : Prop :=
  test '\n' = false ∧ test '\r' = false ∧ test '\u2028' = false ∧ test '\u2029' = false

instance (test : Char → Bool) : Decidable (SparesLineEnds test) := inferInstanceAs (Decidable (_ ∧ _))

theorem SparesLineEnds.eq_false {test : Char → Bool} (h : SparesLineEnds test) {c : Char}
    (hc : test c = true) : isLineTerminator c = false := by
  rw [← Bool.not_eq_true, isLineTerminator_iff]
  rintro (rfl | rfl | rfl | rfl)
  · exact Bool.false_ne_true (h.1 ▸ hc)
  · exact Bool.false_ne_true (h.2.1 ▸ hc)
  · exact Bool.false_ne_true (h.2.2.1 ▸ hc)
  · exact Bool.false_ne_true (h.2.2.2 ▸ hc)

end

/-! ## Cursors -/

/-- The cursor stands in the text, and knows its line. -/
structure Cursor.On (text : List Char) (c : Cursor) : Prop where
  rest : c.rest = text.drop c.offset
  line : c.line = lineAt text c.offset
  lineStart : c.lineStart = lineStartAt text c.offset

namespace Cursor.On

variable {text : List Char} {c : Cursor}

theorem next_of_endsLine (h : c.On text) (hc : endsLine text c.offset = false) :
    c.next.On text where
  rest := by rw [Cursor.next, h.rest, List.tail_drop]
  line := by rw [Cursor.next, lineAt, hc]; exact h.line
  lineStart := by rw [Cursor.next, lineStartAt, hc]; exact h.lineStart

theorem newLine_of_endsLine (h : c.On text) (hc : endsLine text c.offset = true) :
    c.next.newLine.On text where
  rest := by rw [Cursor.newLine, Cursor.next, h.rest, List.tail_drop]
  line := by rw [Cursor.newLine, Cursor.next, lineAt, hc, h.line]; rfl
  lineStart := by rw [Cursor.newLine, Cursor.next, lineStartAt, hc]; rfl

/-- Over anything but a line end the cursor stays on its line. -/
theorem next (h : c.On text) (hpeek : isLineTerminator c.peek = false) : c.next.On text := by
  refine h.next_of_endsLine ?_
  unfold endsLine
  rw [← h.rest]
  unfold Cursor.peek at hpeek
  split
  · rfl
  · next hrest => simpa [hrest] using hpeek
  · rfl

theorem next_of (h : c.On text) {test : Char → Bool} (htest : SparesLineEnds test)
    (hpeek : test c.peek = true) : c.next.On text :=
  h.next (htest.eq_false hpeek)

/-- A carriage return and the line feed behind it end one line. -/
theorem returnFeed {more : List Char} (h : c.On text) (hrest : c.rest = '\r' :: '\n' :: more) :
    c.next.next.newLine.On text := by
  have htext := h.rest.symm.trans hrest
  have hreturn : c.next.On text := h.next_of_endsLine (by rw [endsLine, htext]; rfl)
  refine hreturn.newLine_of_endsLine ?_
  have hfeed : text.drop c.next.offset = '\n' :: more := by
    rw [← hreturn.rest, Cursor.next, hrest, List.tail_cons]
  rw [endsLine, hfeed]
  rfl

/-- Any other line end ends a line alone. -/
theorem lineEnd {d : Char} {rest : List Char} (h : c.On text) (hrest : c.rest = d :: rest)
    (hd : isLineTerminator d = true) (hpair : ∀ more, d = '\r' → rest = '\n' :: more → False) :
    c.next.newLine.On text := by
  refine h.newLine_of_endsLine ?_
  rw [endsLine, ← h.rest, hrest]
  split
  · next heq =>
      obtain ⟨hreturn, hfeed⟩ := List.cons.inj heq
      exact (hpair _ hreturn hfeed).elim
  · next heq => exact (List.cons.inj heq).1 ▸ hd
  · next heq => cases heq

/-- Behind a line end, the cursor is on the next line. -/
theorem afterTerminator (h : c.On text) (hpeek : isLineTerminator c.peek = true) :
    (c.next.afterTerminator c.peek).On text := by
  cases hrest : c.rest with
  | nil => simp [Cursor.peek, hrest, isLineTerminator] at hpeek
  | cons d rest =>
      have hd : c.peek = d := by simp [Cursor.peek, hrest]
      have hnext : c.next.peek = rest.headD '\x00' := by simp [Cursor.peek, Cursor.next, hrest]
      rw [hd] at hpeek ⊢
      unfold Cursor.afterTerminator
      split
      · next hpair =>
          obtain ⟨rfl, hfeed⟩ : d = '\r' ∧ c.next.peek = '\n' := by simpa using hpair
          cases rest with
          | nil => simp [hnext] at hfeed
          | cons e more =>
              obtain rfl : e = '\n' := by simpa [hnext] using hfeed
              exact h.returnFeed hrest
      · next hpair =>
          refine h.lineEnd hrest hpeek fun more hreturn hfeed => hpair ?_
          simp [hnext, hreturn, hfeed]

theorem skipWhile (h : c.On text) {test : Char → Bool} (htest : SparesLineEnds test) :
    (c.skipWhile test).On text := by
  have hgo : ∀ rest offset, Cursor.On text { c with rest, offset } →
      (Cursor.skipWhile.go test c rest offset).On text := by
    intro rest
    induction rest with
    | nil => exact fun offset h => h
    | cons d rest ih =>
        intro offset h
        rw [Cursor.skipWhile.go]
        split
        · next hd => exact ih (offset + 1) (h.next (htest.eq_false hd))
        · exact h
  exact hgo c.rest c.offset h

theorem skip {marks : List Char} (h : c.On text) (hmarks : marks <+: c.rest)
    (hplain : ∀ d ∈ marks, isLineTerminator d = false) : (c.skip marks.length).On text := by
  induction marks generalizing c with
  | nil => exact h
  | cons d marks ih =>
      obtain ⟨hd, hplain⟩ := List.forall_mem_cons.mp hplain
      obtain ⟨rest, hrest⟩ := hmarks
      have hpeek : c.peek = d := by simp [Cursor.peek, ← hrest]
      have hnext := ih (h.next (hpeek ▸ hd)) ⟨rest, by simp [Cursor.next, ← hrest]⟩ hplain
      have hskip : c.skip (marks.length + 1) = c.next.skip marks.length := by
        simp [Cursor.skip, Cursor.next, Nat.add_assoc, Nat.add_comm 1]
      rw [List.length_cons, hskip]
      exact hnext

end Cursor.On

/-! ## Tokens and errors -/

/-- Where the scanner reports a text that is no token or gap, which it began to read at the offset
`start`.  The column counts from one. -/
inductive Misread (text : List Char) (start : Nat) (e : SyntaxError) : Prop where
  /-- at an offset -/
  | here (offset : Nat) (line : e.line = lineAt text offset)
      (column : e.column = columnAt text offset + 1)
  /-- behind the character at an offset, on the line of that character even if it ends a line -/
  | next (offset : Nat) (line : e.line = lineAt text offset)
      (column : e.column = columnAt text offset + 2)
  /-- where the reading began, on the line that it had reached -/
  | opening (reached : Nat) (line : e.line = lineAt text reached)
      (column : e.column = (start : Int) - lineStartAt text reached + 1)

/-- A reader ends with a value as said, or with an error in a place of the text. -/
def Scans {α : Type} (text : List Char) (start : Nat) (R : α → Prop) : Except SyntaxError α → Prop
  | .ok a => R a
  | .error e => Misread text start e

section

variable {text : List Char} {start : Nat} {c after : Cursor} {α β : Type}

theorem Scans.bind {R : α → Prop} {Q : β → Prop} {p : Except SyntaxError α}
    {f : α → Except SyntaxError β} (hp : Scans text start R p)
    (hf : ∀ a, R a → Scans text start Q (f a)) : Scans text start Q (p >>= f) := by
  cases p with
  | ok a => exact hf a hp
  | error e => exact hp

theorem Scans.ok {R : α → Prop} {p : Except SyntaxError α} (h : Scans text start R p) {a : α}
    (hp : p = .ok a) : R a := by
  rwa [hp] at h

theorem Scans.error {R : α → Prop} {p : Except SyntaxError α} (h : Scans text start R p)
    {e : SyntaxError} (hp : p = .error e) : Misread text start e := by
  rwa [hp] at h

theorem Scans.mono {R Q : α → Prop} {p : Except SyntaxError α} (hp : Scans text start R p)
    (h : ∀ a, p = .ok a → R a → Q a) : Scans text start Q p := by
  cases p with
  | ok a => exact h a rfl hp
  | error e => exact hp

/-- A fault at a cursor is on its line. -/
theorem Cursor.On.fault (h : c.On text) (fault : Fault) : Misread text start (c.fault fault) :=
  .here c.offset (by rw [Cursor.fault, h.line]) (by rw [Cursor.fault, h.lineStart, columnAt])

theorem Cursor.On.illegal (h : c.On text) : Misread text start c.illegal := h.fault _

/-! ## Blanks and comments -/

/-- The cursor stands in the text, and not before a line end. -/
structure Cursor.AtToken (text : List Char) (c : Cursor) : Prop extends c.On text where
  plain : isLineTerminator c.peek = false

theorem scans_skipGap (gap : Gap) (rest : List Char) (offset line lineStart : Nat)
    (h : Cursor.On text { rest, offset, line, lineStart }) :
    Scans text start (fun after => after.AtToken text) (skipGap gap rest offset line lineStart) := by
  fun_induction skipGap gap rest offset line lineStart with
  | case1 => exact h.illegal
  | case2 => exact ⟨h, rfl⟩
  | case3 opening c rest offset line lineStart hblank ih =>
      exact ih (h.next_of (by decide : SparesLineEnds isWhiteSpace) hblank)
  | case4 _ _ _ _ _ _ _ ih => exact ih (h.returnFeed rfl)
  | case5 _ _ _ _ _ _ hends _ hpair ih => exact ih (h.lineEnd rfl hends hpair)
  | case6 _ _ _ _ _ _ _ ih => exact ih ((h.next rfl).next rfl)
  | case7 _ _ _ _ _ _ _ ih => exact ih ((h.next rfl).next rfl)
  | case8 _ _ _ _ _ _ ih => exact ih (((h.next rfl).next rfl).next rfl)
  | case9 => exact ⟨h, rfl⟩
  | case10 _ _ _ _ _ _ _ ih => exact ih ((((h.next rfl).next rfl).next rfl).next rfl)
  | case11 _ _ _ _ _ _ _ hplain => exact ⟨h, Bool.eq_false_iff.mpr hplain⟩
  | case12 _ _ _ _ _ _ ih => exact ih (h.returnFeed rfl)
  | case13 _ _ _ _ _ hends _ hpair ih => exact ih (h.lineEnd rfl hends hpair)
  | case14 _ _ _ _ _ _ hplain ih => exact ih (h.next (Bool.eq_false_iff.mpr hplain))
  | case15 _ _ _ _ _ _ ih => exact ih (h.returnFeed rfl)
  | case16 _ _ _ _ _ hends _ hpair ih => exact ih (h.lineEnd rfl hends hpair)
  | case17 _ _ _ _ _ _ ih => exact ih ((h.next rfl).next rfl)
  | case18 _ _ _ _ _ hplain _ _ ih => exact ih (h.next (Bool.eq_false_iff.mpr hplain))

theorem Cursor.On.skipBlanks (h : c.On text) :
    Scans text c.offset (fun after => after.AtToken text) c.skipBlanks :=
  scans_skipGap _ _ _ _ _ h

/-! ## Escapes -/

/-- A fault behind a character that may be a line end is on the line of that character. -/
theorem Cursor.On.fault_next (h : c.On text) (fault : Fault) :
    Misread text start (c.next.fault fault) :=
  .next c.offset (by rw [Cursor.fault, Cursor.next, h.line])
    (by simp only [Cursor.fault, Cursor.next, h.lineStart, columnAt]; omega)

theorem Cursor.On.hexDigits (count : Nat) : ∀ {c : Cursor} (value : Nat), c.On text →
    (c.hexDigits count value).2.On text := by
  induction count with
  | zero => exact fun value h => h
  | succ count ih =>
      intro c value h
      rw [Cursor.hexDigits]
      split
      · next hdigit =>
          have hnext :=
            h.next_of (by decide : SparesLineEnds isHexDigit) (by simp [isHexDigit, hdigit])
          exact ih _ hnext
      · exact h

/-- Behind the digits, the first character that is none was passed, if there is any. -/
theorem Cursor.On.bracedDigits (digits : List Char) : ∀ {c : Cursor} (value : Nat), c.On text →
    c.rest = digits →
      (∀ d, (bracedDigits c value digits).2.1 = some d →
        ∃ last : Cursor, last.On text ∧ last.peek = d ∧
          (bracedDigits c value digits).2.2 = last.next) ∧
      ((bracedDigits c value digits).2.1 = none → (bracedDigits c value digits).2.2.On text) := by
  induction digits with
  | nil => exact fun value h _ => ⟨by simp [Script.bracedDigits], fun _ => h⟩
  | cons d digits ih =>
      intro c value h hrest
      have hpeek : c.peek = d := by simp [Cursor.peek, hrest]
      rw [Script.bracedDigits]
      split
      · next hdigit =>
          have hnext := h.next_of (by decide : SparesLineEnds isHexDigit)
            (by simp [isHexDigit, hpeek, hdigit])
          exact ih _ hnext (by simp [Cursor.next, hrest])
      · exact ⟨fun e he => ⟨c, h, by simpa [hpeek] using he, rfl⟩, fun hnone => by simp at hnone⟩

theorem Cursor.On.bracedPoint (h : c.On text) :
    Scans text start (fun found => found.2.On text) c.bracedPoint := by
  obtain ⟨hsome, hnone⟩ := h.bracedDigits c.rest 0 rfl
  unfold Cursor.bracedPoint
  split
  · exact h.illegal
  split
  · next heq =>
      rw [heq] at hsome
      obtain ⟨last, hlast, hpeek, rfl⟩ := hsome _ rfl
      have hnext := hlast.next (by rw [hpeek]; rfl)
      split
      · exact hnext
      · exact hnext.illegal
  · next found after _ heq =>
      rw [heq] at hsome hnone
      cases found with
      | none => exact (hnone rfl).illegal
      | some d =>
          obtain ⟨last, hlast, -, rfl⟩ := hsome d rfl
          exact hlast.fault_next _

theorem Cursor.On.next_at {d : Char} (h : c.On text) (hpeek : c.peek = d)
    (hd : isLineTerminator d = false) : c.next.On text :=
  h.next (hpeek ▸ hd)

theorem Cursor.peek_of_rest {d : Char} {rest : List Char} (hrest : c.rest = d :: rest) :
    c.peek = d := by
  rw [Cursor.peek, hrest, List.headD_cons]

theorem sparesLineEnds_isIdentifierPart : SparesLineEnds isIdentifierPart := by decide +kernel

theorem Cursor.On.wordEscape (h : c.On text) (admits : Nat → Bool) :
    Scans text start (fun found => found.2.On text) (c.wordEscape admits) := by
  unfold Cursor.wordEscape
  split
  · exact h.illegal
  next hmark =>
    have hnext := h.next_at (Decidable.not_not.mp hmark) rfl
    split
    · next hbrace => exact (hnext.next_at hbrace rfl).bracedPoint.bind fun found hfound => hfound
    · have hdigits := hnext.hexDigits 4 0
      split
      · next heq =>
          rw [heq] at hdigits
          split
          · exact hdigits
          · exact hdigits.illegal
      · next heq =>
          rw [heq] at hdigits
          exact hdigits.illegal

/-! ## Words -/

theorem scans_escapedWord (fuel : Nat) : ∀ {c : Cursor} (reversed : List Char), c.On text →
    Scans text start (fun found => found.2.On text) (escapedWord fuel c reversed) := by
  induction fuel with
  | zero => exact fun reversed h => h
  | succ fuel ih =>
      intro c reversed h
      rw [escapedWord]
      split
      · exact h
      next d rest hrest =>
        have hpeek := Cursor.peek_of_rest hrest
        split
        · next hslash =>
            exact ((h.next_at (hpeek.trans hslash) rfl).wordEscape _).bind fun found hfound =>
              ih _ hfound
        split
        · next hpart => exact ih _ (h.next_of sparesLineEnds_isIdentifierPart (hpeek ▸ hpart))
        · exact h

/-- The characters of a word but for backslashes. -/
theorem sparesLineEnds_wordPart : SparesLineEnds fun d => isIdentifierPart d && d ≠ '\\' := by
  decide +kernel

theorem Scanner.scans_wordLetters {s : Scanner} (h : s.cursor.AtToken text) :
    Scans text start (fun found => found.2.On text) s.wordLetters := by
  have hnext := h.next h.plain
  unfold Scanner.wordLetters
  dsimp only
  split
  · exact (hnext.wordEscape _).bind fun found hfound => scans_escapedWord _ _ hfound
  split
  · exact scans_escapedWord _ _ h.toOn
  · exact hnext.skipWhile sparesLineEnds_wordPart

/-- The token ends at the cursor, which stands in the text. -/
structure Token.EndsAt (text : List Char) (t : Token) (c : Cursor) : Prop where
  on : c.On text
  line : t.line = c.line
  lineStart : t.lineStart = c.lineStart

theorem Cursor.On.endsAt (h : after.On text) (lexeme : Lexeme) :
    (c.token after lexeme).EndsAt text after := ⟨h, rfl, rfl⟩

/-- A reader of tokens ends at the end of a token. -/
def ScansToken (text : List Char) (start : Nat) (p : Except SyntaxError (Token × Scanner)) : Prop :=
  Scans text start (fun found => found.1.EndsAt text found.2.cursor) p

theorem Scanner.scans_word {s : Scanner} (h : s.cursor.AtToken text) :
    ScansToken text s.cursor.offset s.word := by
  refine (Scanner.scans_wordLetters h).bind fun ⟨letters, after⟩ hafter => ?_
  dsimp only
  split
  · exact hafter.endsAt _
  split
  · exact .opening after.offset (by rw [hafter.line]) (by rw [hafter.lineStart])
  · exact hafter.endsAt _

/-! ## Punctuators and numbers -/

theorem plain_of_all {marks : List Char} (h : (marks.all fun d => !isLineTerminator d) = true) :
    ∀ d ∈ marks, isLineTerminator d = false := by
  simpa using h

theorem Cursor.plain_of_punctuator? {mark : String} (hplain : isLineTerminator c.peek = false)
    (h : c.punctuator? = some mark) : ∀ d ∈ mark.toList, isLineTerminator d = false := by
  have hsingle : ∀ d ∈ (String.singleton c.peek).toList, isLineTerminator d = false := by
    simpa using hplain
  have hlong :
      (longPunctuators.all fun long => long.toList.all fun d => !isLineTerminator d) = true := by
    decide +kernel
  unfold Cursor.punctuator? at h
  dsimp only at h
  split at h
  · cases h
    exact hsingle
  split at h
  · split at h
    · cases h
      exact plain_of_all (by decide)
    · cases h
      exact plain_of_all (by decide)
  split at h
  · next hfind =>
      cases h
      exact plain_of_all (List.all_eq_true.mp hlong _ (List.mem_of_find?_eq_some hfind))
  split at h
  · cases h
    exact hsingle
  · cases h

theorem Scanner.scans_punctuator {s : Scanner} (h : s.cursor.AtToken text) :
    ScansToken text s.cursor.offset s.punctuator := by
  unfold Scanner.punctuator
  split
  · exact h.illegal
  · next mark hmark =>
      have hskip := h.toOn.skip (Cursor.punctuator?_spec hmark).2
        (Cursor.plain_of_punctuator? h.plain hmark)
      exact Cursor.On.endsAt hskip _

theorem Cursor.On.endNumber (h : c.On text) (digitsToo : Bool) :
    Scans text start (fun after => after.On text) (c.endNumber digitsToo) := by
  unfold Cursor.endNumber
  split
  · exact h.illegal
  · exact h

theorem Cursor.On.someDigits (h : c.On text) {isDigit : Char → Bool}
    (hspares : SparesLineEnds isDigit) :
    Scans text start (fun after => after.On text) (c.someDigits isDigit) := by
  have hafter := h.skipWhile hspares
  unfold Cursor.someDigits
  dsimp only
  split
  · exact hafter.illegal
  · exact hafter

theorem Cursor.On.fraction (h : c.On text) :
    Scans text start (fun after => after.On text) c.fraction := by
  have hdigits : SparesLineEnds isDecimalDigit := by decide
  have hpoint : (if c.peek = '.' then c.next.skipWhile isDecimalDigit else c).On text := by
    split
    · next hmark => exact (h.next_at hmark rfl).skipWhile hdigits
    · exact h
  unfold Cursor.fraction
  dsimp only
  generalize (if c.peek = '.' then c.next.skipWhile isDecimalDigit else c) = p at hpoint
  split
  · next hmark =>
      have hnext : p.next.On text := by
        obtain hmark | hmark : p.peek = 'e' ∨ p.peek = 'E' := by simpa using hmark
        · exact hpoint.next_at hmark rfl
        · exact hpoint.next_at hmark rfl
      have hsign :
          (if p.next.peek = '+' || p.next.peek = '-' then p.next.next else p.next).On text := by
        split
        · next hmark =>
            obtain hmark | hmark : p.next.peek = '+' ∨ p.next.peek = '-' := by simpa using hmark
            · exact hnext.next_at hmark rfl
            · exact hnext.next_at hmark rfl
        · exact hnext
      generalize (if p.next.peek = '+' || p.next.peek = '-' then p.next.next else p.next) = q
        at hsign
      split
      · exact (hsign.skipWhile hdigits).endNumber _
      · exact hsign.illegal
  · exact hpoint.endNumber _

/-- A number behind its mark. -/
theorem Cursor.On.markedNumber (h : c.On text) {isDigit : Char → Bool}
    (hspares : SparesLineEnds isDigit) (digitsToo : Bool) :
    Scans text start (fun found => found.1.On text)
      (do return (← (← c.someDigits isDigit).endNumber digitsToo, false)) :=
  (h.someDigits hspares).bind fun _ hstop => (hstop.endNumber digitsToo).bind fun _ hafter => hafter

theorem Cursor.On.number (h : c.On text) :
    Scans text start (fun found => found.1.On text) c.number := by
  have hdecimal : Scans text start (fun found => found.1.On text)
      (do return (← (c.skipWhile isDecimalDigit).fraction, false)) :=
    (h.skipWhile (by decide)).fraction.bind fun _ hafter => hafter
  unfold Cursor.number
  dsimp only
  split
  · next hzero =>
      have hnext := h.next_at hzero rfl
      have hmarked : ∀ {a b : Char}, isLineTerminator a = false → isLineTerminator b = false →
          (c.next.peek = a || c.next.peek = b) = true → c.next.next.On text := by
        intro a b ha hb hmark
        obtain hmark | hmark : c.next.peek = a ∨ c.next.peek = b := by simpa using hmark
        · exact hnext.next_at hmark ha
        · exact hnext.next_at hmark hb
      split
      · next hmark => exact (hmarked rfl rfl hmark).markedNumber (by decide) _
      split
      · next hmark => exact (hmarked rfl rfl hmark).markedNumber (by decide) _
      split
      · next hmark => exact (hmarked rfl rfl hmark).markedNumber (by decide) _
      split
      · exact ((hnext.skipWhile (by decide)).endNumber _).bind fun _ hafter => hafter
      · exact hdecimal
  · exact hdecimal

theorem Scanner.scans_number {s : Scanner} (h : s.cursor.On text) :
    ScansToken text s.cursor.offset s.number :=
  h.number.bind fun ⟨_, _⟩ hafter => Cursor.On.endsAt hafter _

/-! ## Strings -/

theorem Cursor.On.octalEscape (h : c.On text) (first : Char) : (c.octalEscape first).2.2.On text := by
  have hdigit : SparesLineEnds isOctalDigit := by decide
  unfold Cursor.octalEscape
  dsimp only
  split
  · next hpeek =>
      have hnext := h.next_of hdigit hpeek
      split
      · next hmore => exact hnext.next_of hdigit (Bool.and_eq_true_iff.mp hmore).2
      · exact hnext
  · exact h

theorem Cursor.On.pointEscape (h : c.On text) :
    Scans text start (fun found => found.2.On text) c.pointEscape := by
  unfold Cursor.pointEscape
  split
  · next hbrace => exact (h.next_at hbrace rfl).bracedPoint.bind fun _ hafter => hafter
  · have hdigits := h.hexDigits 4 0
    split
    · next heq =>
        rw [heq] at hdigits
        exact hdigits
    · next heq =>
        rw [heq] at hdigits
        exact hdigits.illegal

theorem Cursor.On.byteEscape (h : c.On text) :
    Scans text start (fun found => found.2.On text) c.byteEscape := by
  have hdigits := h.hexDigits 2 0
  unfold Cursor.byteEscape
  split
  · next heq =>
      rw [heq] at hdigits
      exact hdigits
  · next heq =>
      rw [heq] at hdigits
      exact hdigits.fault _

/-- The cursor is on the line of some offset, and it stands in the text unless a string was left
open at a line end. -/
structure Cursor.BehindString (text : List Char) (closed : Bool) (c : Cursor) : Prop where
  on : closed = true → c.On text
  line : ∃ offset, c.line = lineAt text offset ∧ c.lineStart = lineStartAt text offset

theorem Cursor.On.behindString (h : c.On text) (closed : Bool) : c.BehindString text closed :=
  ⟨fun _ => h, c.offset, h.line, h.lineStart⟩

theorem scans_stringText {quote : Char} (hquote : isLineTerminator quote = false) (fuel : Nat) :
    ∀ {c : Cursor} (read : StringText), c.On text →
      Scans text start (fun found => found.2.2.BehindString text found.1)
        (stringText quote fuel c read) := by
  induction fuel with
  | zero => exact fun read h => h.behindString false
  | succ fuel ih =>
      intro c read h
      rw [stringText]
      split
      · exact h.behindString false
      next d rest hrest =>
        have hpeek := Cursor.peek_of_rest hrest
        dsimp only
        split
        · next hclose => exact (h.next_at (hpeek.trans hclose) hquote).behindString true
        split
        · next hslash =>
            have hnext := h.next_at (hpeek.trans hslash) rfl
            split
            · next hends => exact ih _ (hnext.afterTerminator hends)
            next hplain =>
              have hbehind := hnext.next (Bool.eq_false_iff.mpr hplain)
              split
              · exact hbehind.pointEscape.bind fun _ hafter => ih _ hafter
              split
              · exact hbehind.byteEscape.bind fun _ hafter => ih _ hafter
              split
              · exact hbehind.illegal
              split
              · exact ih _ (hbehind.octalEscape _)
              · exact ih _ hbehind
        split
        · exact ⟨fun h => absurd h Bool.false_ne_true, c.offset, h.line, h.lineStart⟩
        · next hplain => exact ih _ (h.next (hpeek ▸ Bool.eq_false_iff.mpr hplain))

theorem Scanner.scans_string {s : Scanner} (h : s.cursor.AtToken text) :
    ScansToken text s.cursor.offset s.string := by
  refine (scans_stringText h.plain s.size _ (h.next h.plain)).bind
    fun ⟨closed, read, after⟩ hafter => ?_
  dsimp only
  split
  · obtain ⟨offset, hline, hstart⟩ : ∃ offset, after.line = lineAt text offset ∧
        after.lineStart = lineStartAt text offset := hafter.line
    exact .opening offset (by simp [Cursor.illegal, Cursor.fault, hline])
      (by simp [Cursor.illegal, Cursor.fault, hstart])
  · next hclosed => exact Cursor.On.endsAt (hafter.on (by simpa using hclosed)) _

/-! ## Templates -/

theorem Cursor.On.templateEscape (h : c.On text) :
    Scans text start (fun after => after.On text) c.templateEscape := by
  unfold Cursor.templateEscape
  dsimp only
  split
  · next hends => exact h.afterTerminator hends
  next hplain =>
    have hnext := h.next (Bool.eq_false_iff.mpr hplain)
    split
    · split
      · next hbrace => exact (hnext.next_at hbrace rfl).bracedPoint.bind fun _ hafter => hafter
      · have hdigits := hnext.hexDigits 4 0
        split
        · next heq =>
            rw [heq] at hdigits
            exact hdigits
        · exact hnext
    split
    · exact hnext.byteEscape.bind fun _ hafter => hafter
    split
    · split
      · exact hnext.fault _
      · exact hnext
    split
    · exact hnext.fault _
    · exact hnext

theorem scans_templateText (fuel : Nat) : ∀ {c : Cursor}, c.On text →
    Scans text start (fun found => found.2.On text) (templateText fuel c) := by
  induction fuel with
  | zero => exact fun h => h.illegal
  | succ fuel ih =>
      intro c h
      rw [templateText]
      split
      · exact h.illegal
      next d rest hrest =>
        have hpeek := Cursor.peek_of_rest hrest
        dsimp only
        split
        · next hclose => exact h.next_at (hpeek.trans hclose) rfl
        split
        · next hopen =>
            obtain ⟨hdollar, hbrace⟩ : d = '$' ∧ c.next.peek = '\x7b' := by simpa using hopen
            exact (h.next_at (hpeek.trans hdollar) rfl).next_at hbrace rfl
        split
        · next hslash =>
            exact (h.next_at (hpeek.trans hslash) rfl).templateEscape.bind fun _ hafter => ih hafter
        split
        · next hends => exact ih (hpeek ▸ h.afterTerminator (hpeek.symm ▸ hends))
        · next hplain => exact ih (h.next (hpeek ▸ Bool.eq_false_iff.mpr hplain))

theorem Scanner.scans_template {s : Scanner} (h : s.cursor.AtToken text) :
    ScansToken text s.cursor.offset s.template :=
  (scans_templateText (s.size + 1) (h.next h.plain)).bind fun ⟨_, _⟩ hafter =>
    Cursor.On.endsAt hafter _

/-! ## Regular expressions -/

theorem scans_patternText (fuel : Nat) : ∀ {c : Cursor} (bracket : Bool), c.On text →
    Scans text start (fun after => after.On text) (patternText fuel bracket c) := by
  induction fuel with
  | zero => exact fun bracket h => h.fault _
  | succ fuel ih =>
      intro c bracket h
      rw [patternText]
      split
      · exact h.fault _
      next d rest hrest =>
        have hpeek := Cursor.peek_of_rest hrest
        dsimp only
        split
        · next hslash =>
            have hnext := h.next_at (hpeek.trans hslash) rfl
            split
            · exact hnext.fault_next _
            · next hplain => exact ih _ (hnext.next (Bool.eq_false_iff.mpr hplain))
        split
        · exact h.fault_next _
        next hplain =>
          have hnext := h.next (hpeek ▸ Bool.eq_false_iff.mpr hplain)
          split
          · exact ih _ hnext
          split
          · exact hnext
          · exact ih _ hnext

theorem Cursor.On.patternFlags (h : c.On text) :
    Scans text start (fun after => after.On text) c.patternFlags := by
  have hafter := h.skipWhile sparesLineEnds_wordPart
  unfold Cursor.patternFlags
  dsimp only
  split
  · next hslash =>
      have hnext := hafter.next_at hslash rfl
      split
      · exact hnext
      split
      · next hmark =>
          have hdigits := (hnext.next_at hmark rfl).hexDigits 4 0
          split
          · next heq =>
              rw [heq] at hdigits
              exact hdigits.illegal
          · exact (hnext.next_at hmark rfl).illegal
      · exact hnext.illegal
  · exact hafter

theorem Scanner.scans_pattern {s : Scanner} (h : s.cursor.AtToken text) :
    ScansToken text s.cursor.offset s.pattern := by
  refine (scans_patternText _ _ (h.next h.plain)).bind fun body hbody => ?_
  refine hbody.patternFlags.bind fun after hafter => ?_
  dsimp only
  split
  · exact hafter.fault _
  · exact Cursor.On.endsAt hafter _

/-! ## Any token -/

theorem Scanner.scans_lex {s : Scanner} (h : s.cursor.AtToken text) :
    ScansToken text s.cursor.offset s.lex := by
  unfold Scanner.lex
  dsimp only
  split
  · exact Cursor.On.endsAt h.toOn _
  split
  · exact Scanner.scans_word h
  split
  · exact Scanner.scans_string h
  split
  · exact Scanner.scans_number h.toOn
  split
  · exact Scanner.scans_template h
  · exact Scanner.scans_punctuator h

/-! ## Tokens of a text -/

/-- The token is what the scanner reads where it starts; in strict code, a name may be reserved. -/
def Token.IsRead (text : List Char) (t : Token) : Prop :=
  ∃ (s after : Scanner) (lexeme : Lexeme), s.cursor.AtToken text ∧ after.cursor.On text ∧
    s.cursor.offset = t.start ∧ after.cursor.offset = t.stop ∧
      (s.lex = .ok ({ t with lexeme }, after) ∨ s.pattern = .ok ({ t with lexeme }, after))

/-- A token starts at the offset: gaps and tokens take turns from the start of the text up to it. -/
inductive Opens (text : List Char) : Nat → Prop where
  /-- behind the first gap -/
  | first {start : Nat} (gap : IsGap text 0 start) : Opens text start
  /-- behind the gap behind a token -/
  | next {t : Token} {start : Nat} (opens : Opens text t.start) (isRead : t.IsRead text)
      (gap : IsGap text t.stop start) : Opens text start

/-- The token is one of the text, and says on which line it ends and where that line starts. -/
structure Token.Stands (text : List Char) (t : Token) : Prop where
  opens : Opens text t.start
  isRead : t.IsRead text
  le : t.start ≤ t.stop
  line : t.line = lineAt text t.stop
  lineStart : t.lineStart = lineStartAt text t.stop

/-- A token starts or ends at the offset. -/
def IsEdge (text : List Char) (offset : Nat) : Prop :=
  Opens text offset ∨ ∃ t : Token, t.Stands text ∧ t.stop = offset

/-- Renaming a token leaves it where it is. -/
theorem Token.Stands.withLexeme {t : Token} (h : t.Stands text) (lexeme : Lexeme) :
    Token.Stands text { t with lexeme } :=
  { h with isRead := h.isRead }

/-- A token that was read where one starts is one of the text, and the scanner is behind it. -/
theorem Token.EndsAt.stands {s next : Scanner} {t : Token} (h : t.EndsAt text next.cursor)
    (hs : s.cursor.AtToken text) (hopens : Opens text s.cursor.offset) (hlexes : s.Lexes t next)
    (hread : s.lex = .ok (t, next) ∨ s.pattern = .ok (t, next)) :
    t.Stands text ∧ next.cursor.On text ∧ next.cursor.offset = t.stop where
  left :=
    { opens := hlexes.start ▸ hopens
      isRead := ⟨s, next, t.lexeme, hs, h.on, hlexes.start.symm, hlexes.stop.symm, hread⟩
      le := hlexes.start_le_stop
      line := by rw [h.line, h.on.line, hlexes.stop]
      lineStart := by rw [h.lineStart, h.on.lineStart, hlexes.stop] }
  right := ⟨h.on, hlexes.stop.symm⟩

theorem Scanner.stands_lex {s : Scanner} (h : s.cursor.AtToken text)
    (hopens : Opens text s.cursor.offset) :
    Scans text s.cursor.offset (fun found => found.1.Stands text ∧ found.2.cursor.On text ∧
      found.2.cursor.offset = found.1.stop) s.lex :=
  Scans.mono (Scanner.scans_lex h) fun _ hread hends =>
    hends.stands h hopens (Scanner.lexes_lex hread).1 (.inl hread)

theorem Scanner.stands_pattern {s : Scanner} (h : s.cursor.AtToken text)
    (hopens : Opens text s.cursor.offset) :
    Scans text s.cursor.offset (fun found => found.1.Stands text ∧ found.2.cursor.On text ∧
      found.2.cursor.offset = found.1.stop) s.pattern :=
  Scans.mono (Scanner.scans_pattern h) fun _ hread hends =>
    hends.stands h hopens (Scanner.lexes_pattern hread) (.inr hread)

end

end EditionSurvey.Script
