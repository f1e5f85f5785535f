/-
  Proofs/Grammar/Reading.lean --- what a production reads, and rules for what it gives.

  A `Reading` is what matters of a state: the tokens that were read, the token ahead, and the offset
  up to which nodes reach that end now.  `Gives source p r Q` says that the production `p`, begun at the
  reading `r`, ends with a value and a reading that satisfy `Q`, if it ends with a value at all.  The
  context of the productions is left open, so what only changes the context changes nothing here.

  There is one rule for each step that productions are made of, in the form in which it stands before
  the rest of a production.
-/
import EditionSurvey.Script.Grammar.Program
import EditionSurvey.Proofs.Scanning

set_option autoImplicit false

namespace EditionSurvey.Script.Grammar

/-! ## Readings -/

/-- What matters of a state. -/
structure Reading where
  /-- the tokens that were read, first to last -/
  read : List Token
  /-- the token ahead -/
  ahead : Token
  /-- behind the last token that was read -/
  edge : Nat

/-- The reading behind the token ahead. -/
def Reading.after (r : Reading) (next : Token) : Reading where
  read := r.read ++ [r.ahead]
  ahead := next
  edge := r.ahead.stop

/-- The reading of which the edge is moved to the token ahead, as at the end of a statement without
semicolon. -/
def Reading.settled (r : Reading) : Reading := { r with edge := r.ahead.start }

/-- More tokens were read, behind the edge. -/
def Reading.Extends (r later : Reading) : Prop :=
  r.edge ≤ later.edge ∧ ∃ more, later.read = r.read ++ more ∧ ∀ t ∈ more, r.edge ≤ t.start

/-- The tokens stand in the source one behind the other, up to the edge, with gaps between them. -/
structure Reading.Sound (source : List Char) (r : Reading) : Prop where
  stops : ∀ t ∈ r.read, t.stop ≤ r.edge
  edge : r.edge ≤ r.ahead.start
  tiled : Tiled source 0 (r.read ++ [r.ahead])
  spelled : ∀ t ∈ r.read ++ [r.ahead], t.Spelled source

/-- The state is at the reading.  Before the first token is read, the state has no edge. -/
structure At (source : List Char) (s : State) (r : Reading) : Prop where
  cursor : s.scanner.cursor.rest = source.drop s.scanner.cursor.offset
  aheadStart : s.aheadStart.rest = source.drop s.aheadStart.offset
  read : s.read = r.read.reverse
  ahead : s.ahead = r.ahead
  start : s.aheadStart.offset = r.ahead.start
  stop : s.scanner.cursor.offset = r.ahead.stop
  behind : r.read ≠ [] → s.behind.offset = r.edge
  sound : r.Sound source

namespace Reading

variable {source : List Char} {r later last : Reading} {next : Token}

@[simp] theorem after_ahead (r : Reading) (next : Token) : (r.after next).ahead = next := rfl

@[simp] theorem after_edge (r : Reading) (next : Token) : (r.after next).edge = r.ahead.stop := rfl

@[simp] theorem after_read (r : Reading) (next : Token) :
    (r.after next).read = r.read ++ [r.ahead] := rfl

@[simp] theorem settled_ahead (r : Reading) : r.settled.ahead = r.ahead := rfl

@[simp] theorem settled_read (r : Reading) : r.settled.read = r.read := rfl

theorem Extends.refl (r : Reading) : r.Extends r := ⟨Nat.le_refl _, [], by simp, by simp⟩

theorem Extends.trans (h : r.Extends later) (h' : later.Extends last) : r.Extends last := by
  obtain ⟨hedge, more, hread, hmore⟩ := h
  obtain ⟨hedge', more', hread', hmore'⟩ := h'
  refine ⟨by omega, more ++ more', by rw [hread', hread, List.append_assoc], ?_⟩
  intro t ht
  obtain ht | ht := List.mem_append.mp ht
  · exact hmore t ht
  · exact Nat.le_trans hedge (hmore' t ht)

theorem Extends.read_ne_nil (h : r.Extends later) (hr : r.read ≠ []) : later.read ≠ [] := by
  obtain ⟨-, more, hread, -⟩ := h
  rw [hread]
  exact List.append_ne_nil_of_left_ne_nil hr more

theorem after_read_ne_nil (r : Reading) (next : Token) : (r.after next).read ≠ [] := by simp

theorem Sound.ahead_le (h : r.Sound source) : r.ahead.start ≤ r.ahead.stop := by
  have hlast : ∀ {tokens : List Token} {start : Nat},
      Tiled source start (tokens ++ [r.ahead]) → r.ahead.start ≤ r.ahead.stop := by
    intro tokens
    induction tokens with
    | nil => exact fun htiled => htiled.2.1
    | cons t tokens ih => exact fun htiled => ih htiled.2.2
  exact hlast h.tiled

theorem Sound.extends_after (h : r.Sound source) (next : Token) : r.Extends (r.after next) :=
  ⟨Nat.le_trans h.edge h.ahead_le, [r.ahead], rfl, by simpa using h.edge⟩

theorem Sound.extends_settled (h : r.Sound source) : r.Extends r.settled :=
  ⟨h.edge, [], by simp, by simp⟩

theorem Sound.after (h : r.Sound source) (hgap : IsGap source r.ahead.stop next.start)
    (hspan : next.start ≤ next.stop) (hspelled : next.Spelled source) :
    (r.after next).Sound source where
  stops t ht := by
    obtain ht | rfl := by simpa using ht
    · exact Nat.le_trans (h.stops t ht) (Nat.le_trans h.edge h.ahead_le)
    · exact Nat.le_refl _
  edge := hgap.le
  tiled := h.tiled.concat hgap hspan
  spelled t ht := by
    obtain ht | ht := List.mem_append.mp ht
    · exact h.spelled t ht
    · obtain rfl := List.mem_singleton.mp ht
      exact hspelled

theorem Sound.settled (h : r.Sound source) : r.settled.Sound source where
  stops t ht := Nat.le_trans (h.stops t ht) h.edge
  edge := Nat.le_refl _
  tiled := h.tiled
  spelled := h.spelled

end Reading

/-! ## What a production gives -/

/-- The state is at the reading, and no regular expression is ahead: one is read as soon as the
parser asks for it. -/
structure Fits (source : List Char) (s : State) (r : Reading) : Prop extends At source s r where
  plain : r.ahead.NoPattern

/-- The production, begun at the reading, ends with a value and a reading as said, if it ends with a
value. -/
def Gives {α : Type} (source : List Char) (p : Parse α) (r : Reading) (Q : α → Reading → Prop) :
    Prop :=
  ∀ s a s', Fits source s r → p s = .ok (a, s') →
    ∃ later, Fits source s' later ∧ r.Extends later ∧ Q a later

/-- The production changes nothing but the context and what the scanner knows of braces. -/
def Still {α : Type} (p : Parse α) : Prop :=
  ∀ s a s', p s = .ok (a, s') →
    ∃ context braces, s' = { s with context, scanner := { s.scanner with braces } }

/-- The production never ends with a value. -/
def Fails {α : Type} (p : Parse α) : Prop := ∀ s a s', p s ≠ .ok (a, s')

variable {source : List Char} {r : Reading} {α β : Type}

theorem bind_ok_iff {p : Parse α} {f : α → Parse β} {s s' : State} {b : β} :
    (p >>= f) s = .ok (b, s') ↔ ∃ a mid, p s = .ok (a, mid) ∧ f a mid = .ok (b, s') := by
  rw [show (p >>= f) s = p s >>= fun found => f found.1 found.2 from rfl, bind_eq_ok_iff]
  simp

/-! ### Productions that fail, and productions that read nothing -/

theorem fails_interrupt (i : Interruption) : Fails (interrupt i : Parse α) := by
  intro s a s' h
  cases h

theorem Fails.bind {p : Parse α} (hp : Fails p) (f : α → Parse β) : Fails (p >>= f) := by
  intro s b s' h
  obtain ⟨a, mid, ha, -⟩ := bind_ok_iff.mp h
  exact hp s a mid ha

theorem Fails.of_bind {p : Parse α} {f : α → Parse β} (hf : ∀ a, Fails (f a)) :
    Fails (p >>= f) := by
  intro s b s' h
  obtain ⟨a, mid, -, hb⟩ := bind_ok_iff.mp h
  exact hf a mid b s' hb

theorem fails_failAt (t : Token) (fault : Fault) : Fails (failAt t fault : Parse α) :=
  .of_bind fun _ => fails_interrupt _

theorem fails_failBehind (fault : Fault) : Fails (failBehind fault : Parse α) :=
  .of_bind fun _ => fails_interrupt _

theorem fails_failAhead (fault : Fault) : Fails (failAhead fault : Parse α) :=
  .of_bind fun _ => fails_interrupt _

theorem fails_unexpected (t : Token) : Fails (unexpected t : Parse α) :=
  .of_bind fun _ => fails_failAt _ _

theorem Fails.still {p : Parse α} (hp : Fails p) : Still p :=
  fun s a s' h => absurd h (hp s a s')

theorem still_pure (a : α) : Still (pure a : Parse α) := by
  intro s b s' h
  cases h
  exact ⟨s.context, s.scanner.braces, rfl⟩

theorem still_get : Still (get : Parse State) := by
  intro s a s' h
  cases h
  exact ⟨s.context, s.scanner.braces, rfl⟩

theorem still_modifyContext (f : Context → Context) : Still (modifyContext f) := by
  intro s a s' h
  cases h
  exact ⟨f s.context, s.scanner.braces, rfl⟩

theorem Still.bind {p : Parse α} {f : α → Parse β} (hp : Still p) (hf : ∀ a, Still (f a)) :
    Still (p >>= f) := by
  intro s b s' h
  obtain ⟨a, mid, ha, hb⟩ := bind_ok_iff.mp h
  obtain ⟨c, braces, rfl⟩ := hp s a mid ha
  obtain ⟨c', braces', rfl⟩ := hf a _ b s' hb
  exact ⟨c', braces', rfl⟩

theorem Still.ite {c : Prop} [Decidable c] {p q : Parse α} (hp : Still p) (hq : Still q) :
    Still (if c then p else q) := by
  split
  · exact hp
  · exact hq

theorem still_context : Still context := still_get.bind fun _ => still_pure _

theorem still_strict : Still strict := still_context.bind fun _ => still_pure _

theorem still_lineBreak : Still lineBreak := still_get.bind fun _ => still_pure _

theorem still_budget : Still budget := still_get.bind fun _ => still_pure _

theorem scan_ok_iff {step : Except SyntaxError α} {s s' : State} {a : α} :
    scan step s = .ok (a, s') ↔ step = .ok a ∧ s = s' := by
  cases step with
  | error e =>
      constructor
      · intro h
        cases h
      · rintro ⟨h, -⟩
        cases h
  | ok b =>
      constructor
      · intro h
        cases h
        exact ⟨rfl, rfl⟩
      · rintro ⟨h, rfl⟩
        cases h
        rfl

theorem get_bind_ok_iff {f : State → Parse α} {s s' : State} {a : α} :
    (get >>= f) s = .ok (a, s') ↔ f s s = .ok (a, s') := Iff.rfl

theorem still_ahead : Still ahead := still_get.bind fun _ => still_pure _

theorem still_sees (mark : String) : Still (sees mark) := by
  refine still_ahead.bind fun t => ?_
  split <;> exact still_pure _

theorem still_seesKeyword (word : String) : Still (seesKeyword word) := by
  refine still_ahead.bind fun t => ?_
  split <;> exact still_pure _

theorem still_seesName (word : String) : Still (seesName word) :=
  still_ahead.bind fun _ => still_pure _

theorem still_seesEnd : Still seesEnd := still_ahead.bind fun _ => still_pure _

theorem still_peekBeyond : Still peekBeyond := by
  intro s t s' h
  obtain ⟨⟨token, scanner⟩, mid, hscan, h⟩ := bind_ok_iff.mp (get_bind_ok_iff.mp h)
  obtain ⟨-, rfl⟩ := scan_ok_iff.mp hscan
  cases h
  exact ⟨s.context, scanner.braces, rfl⟩

/-! ### Rules -/

theorem Fits.still {s : State} (h : Fits source s r) (context : Context) (braces : List Brace) :
    Fits source { s with context, scanner := { s.scanner with braces } } r :=
  { h with }

theorem Gives.of_sound {p : Parse α} {Q : α → Reading → Prop}
    (h : r.Sound source → r.ahead.NoPattern → Gives source p r Q) : Gives source p r Q :=
  fun s a s' hs => h hs.sound hs.plain s a s' hs

theorem Gives.of_fails {p : Parse α} (hp : Fails p) {Q : α → Reading → Prop} :
    Gives source p r Q :=
  fun s a s' _ h => absurd h (hp s a s')

/-- Where the condition holds, the production fails. -/
theorem Gives.unless {c : Prop} [Decidable c] {p : Parse β} {f : β → Parse α} {q : Parse α}
    {Q : α → Reading → Prop} (hp : Fails p) (hq : ¬c → Gives source q r Q) :
    Gives source (if c then p >>= f else q) r Q := by
  split
  · exact .of_fails (hp.bind f)
  · rename_i h
    exact hq h

theorem Gives.pure {a : α} {Q : α → Reading → Prop} (h : Q a r) :
    Gives source (pure a : Parse α) r Q := by
  intro s b s' hs hrun
  cases hrun
  exact ⟨r, hs, .refl r, h⟩

theorem Gives.mono {p : Parse α} {P Q : α → Reading → Prop} (hp : Gives source p r P)
    (h : ∀ a later, r.Extends later → P a later → Q a later) : Gives source p r Q := by
  intro s a s' hs hrun
  obtain ⟨later, hlater, hextends, ha⟩ := hp s a s' hs hrun
  exact ⟨later, hlater, hextends, h a later hextends ha⟩

theorem Gives.bind {p : Parse α} {f : α → Parse β} {P : α → Reading → Prop}
    {Q : β → Reading → Prop} (hp : Gives source p r P)
    (hf : ∀ a later, r.Extends later → P a later → Gives source (f a) later Q) :
    Gives source (p >>= f) r Q := by
  intro s b s' hs hrun
  obtain ⟨a, mid, ha, hb⟩ := bind_ok_iff.mp hrun
  obtain ⟨later, hlater, hextends, hPa⟩ := hp s a mid hs ha
  obtain ⟨last, hlast, hextends', hQb⟩ := hf a later hextends hPa mid b s' hlater hb
  exact ⟨last, hlast, hextends.trans hextends', hQb⟩

theorem Still.gives {p : Parse α} (hp : Still p) : Gives source p r fun _ later => later = r := by
  intro s a s' hs hrun
  obtain ⟨context, braces, rfl⟩ := hp s a s' hrun
  exact ⟨r, hs.still context braces, .refl r, rfl⟩

/-- What reads nothing may stand before anything. -/
theorem Gives.after_still {p : Parse α} {f : α → Parse β} {Q : β → Reading → Prop} (hp : Still p)
    (hf : ∀ a, Gives source (f a) r Q) : Gives source (p >>= f) r Q := by
  refine hp.gives.bind fun a later _ hlater => ?_
  subst hlater
  exact hf a

/-! ## The steps of productions -/

theorem reserveStrict_cases (strict : Bool) (t : Token) :
    reserveStrict strict t = t ∨
      ∃ name, t.lexeme = .identifier name ∧ reserveStrict strict t = { t with lexeme := .keyword name } := by
  unfold reserveStrict
  split
  · rename_i name hname
    split
    · exact .inr ⟨name, hname, rfl⟩
    · exact .inl rfl
  · exact .inl rfl

/-- What reading a token leads to: the next token stands behind it, with a gap between them. -/
structure Advances (source : List Char) (s : State) (t : Token) (s' : State) : Prop where
  token : t = s.ahead
  read : s'.read = s.ahead :: s.read
  behind : s'.behind.offset = s.scanner.cursor.offset
  cursor : s'.scanner.cursor.rest = source.drop s'.scanner.cursor.offset
  aheadStart : s'.aheadStart.rest = source.drop s'.aheadStart.offset
  start : s'.aheadStart.offset = s'.ahead.start
  stop : s'.scanner.cursor.offset = s'.ahead.stop
  gap : IsGap source s.scanner.cursor.offset s'.ahead.start
  span : s'.ahead.start ≤ s'.ahead.stop
  spelled : s'.ahead.Spelled source
  plain : s'.ahead.NoPattern

theorem advances {s s' : State} {t : Token}
    (hs : s.scanner.cursor.rest = source.drop s.scanner.cursor.offset)
    (h : advance s = .ok (t, s')) : Advances source s t s' := by
  obtain ⟨cursor, _, hscan, h⟩ := bind_ok_iff.mp (get_bind_ok_iff.mp h)
  obtain ⟨hskip, rfl⟩ := scan_ok_iff.mp hscan
  obtain ⟨⟨token, scanner⟩, _, hscan, h⟩ := bind_ok_iff.mp h
  obtain ⟨hlex, rfl⟩ := scan_ok_iff.mp hscan
  cases h
  obtain ⟨hlexes, hplain⟩ := Scanner.lexes_lex hlex
  have hcursor := (Cursor.reaches_skipBlanks hskip).rest_eq hs
  have hgap : IsGap source s.scanner.cursor.offset token.start :=
    ⟨s.scanner.cursor.line, s.scanner.cursor.lineStart, cursor, hs ▸ hskip, hlexes.start.symm⟩
  have hspelled := hlexes.spelled hcursor
  have hkept : (reserveStrict s.context.strict token).start = token.start ∧
      (reserveStrict s.context.strict token).stop = token.stop ∧
      (reserveStrict s.context.strict token).Spelled source ∧
      (reserveStrict s.context.strict token).NoPattern := by
    obtain h | ⟨name, hname, h⟩ := reserveStrict_cases s.context.strict token
    · rw [h]
      exact ⟨rfl, rfl, hspelled, hplain⟩
    · rw [h]
      exact ⟨rfl, rfl, by simp [Token.Spelled], by simp [Token.NoPattern]⟩
  obtain ⟨hstart, hstop, hspelled, hplain⟩ := hkept
  exact {
    token := rfl
    read := rfl
    behind := rfl
    cursor := hlexes.reaches.rest_eq hcursor
    aheadStart := hcursor
    start := hlexes.start.symm.trans hstart.symm
    stop := hlexes.stop.symm.trans hstop.symm
    gap := hstart ▸ hgap
    span := by rw [hstart, hstop]; exact hlexes.start_le_stop
    spelled := hspelled
    plain := hplain }

/-- The token at the place of a state is read, and another one is ahead. -/
theorem At.advance {s s' : State} {t : Token} (hs : At source s r)
    (h : advance s = .ok (t, s')) :
    t = r.ahead ∧ ∃ next, Fits source s' (r.after next) := by
  have h := advances hs.cursor h
  refine ⟨h.token.trans hs.ahead, s'.ahead, ?_⟩
  exact {
    cursor := h.cursor
    aheadStart := h.aheadStart
    read := by simp [h.read, hs.read, hs.ahead]
    ahead := rfl
    start := h.start
    stop := h.stop
    behind := fun _ => h.behind.trans hs.stop
    sound := hs.sound.after (hs.stop ▸ h.gap) h.span h.spelled
    plain := h.plain }

/-- The reading with another token ahead at the same place. -/
def Reading.withAhead (r : Reading) (t : Token) : Reading := { r with ahead := t }

theorem Reading.Sound.withAhead (h : r.Sound source) {t : Token} (hstart : t.start = r.ahead.start)
    (hspan : t.start ≤ t.stop) (hspelled : t.Spelled source) : (r.withAhead t).Sound source where
  stops := h.stops
  edge := hstart ▸ h.edge
  tiled := h.tiled.replaceLast hstart hspan
  spelled other hother := by
    obtain hother | hother := List.mem_append.mp hother
    · exact h.spelled other (List.mem_append_left _ hother)
    · obtain rfl := List.mem_singleton.mp hother
      exact hspelled

theorem gives_advance :
    Gives source advance r fun t later => t = r.ahead ∧ ∃ next, later = r.after next := by
  refine .of_sound fun hsound _ s t s' hs h => ?_
  obtain ⟨ht, next, hnext⟩ := hs.toAt.advance h
  exact ⟨_, hnext, hsound.extends_after next, ht, next, rfl⟩

theorem gives_advancePattern :
    Gives source advancePattern r fun t later =>
      t.start = r.ahead.start ∧ (r.withAhead t).Sound source ∧
        ∃ next, later = (r.withAhead t).after next := by
  refine .of_sound fun hsound _ s t s' hs h => ?_
  obtain ⟨⟨token, scanner⟩, _, hscan, h⟩ := bind_ok_iff.mp (get_bind_ok_iff.mp h)
  obtain ⟨hpattern, rfl⟩ := scan_ok_iff.mp hscan
  obtain ⟨_, mid, hset, h⟩ := bind_ok_iff.mp h
  cases hset
  have hlexes := Scanner.lexes_pattern hpattern
  have hstart : token.start = r.ahead.start := hlexes.start.trans hs.start
  have hwith := hsound.withAhead hstart hlexes.start_le_stop (hlexes.spelled hs.aheadStart)
  have hmid : At source { s with scanner, ahead := token } (r.withAhead token) :=
    { cursor := hlexes.reaches.rest_eq hs.aheadStart
      aheadStart := hs.aheadStart
      read := hs.read
      ahead := rfl
      start := hlexes.start.symm
      stop := hlexes.stop.symm
      behind := hs.behind
      sound := hwith }
  obtain ⟨rfl, next, hnext⟩ := hmid.advance h
  exact ⟨_, hnext, hwith.extends_after next, hstart, hwith, next, rfl⟩

variable {Q : β → Reading → Prop}

theorem Gives.advance_bind {f : Token → Parse β}
    (k : ∀ next, Gives source (f r.ahead) (r.after next) Q) : Gives source (advance >>= f) r Q := by
  refine gives_advance.bind fun t later _ h => ?_
  obtain ⟨rfl, next, rfl⟩ := h
  exact k next

theorem Gives.ahead_bind {f : Token → Parse β} (k : Gives source (f r.ahead) r Q) :
    Gives source (ahead >>= f) r Q := by
  intro s b s' hs h
  obtain ⟨t, mid, ht, h⟩ := bind_ok_iff.mp h
  cases ht
  rw [hs.ahead] at h
  exact k s b s' hs h

theorem Gives.here_bind {f : Mark → Parse β}
    (k : ∀ mark : Mark, mark.offset = r.ahead.start → Gives source (f mark) r Q) :
    Gives source (here >>= f) r Q := by
  intro s b s' hs h
  obtain ⟨mark, mid, hmark, h⟩ := bind_ok_iff.mp h
  cases hmark
  exact k _ hs.start s b s' hs h

theorem Gives.test {b : Bool} {P : Prop} {f : Bool → Parse β} (h : b = true ↔ P)
    (yes : P → Gives source (f true) r Q) (no : ¬P → Gives source (f false) r Q) :
    Gives source (f b) r Q := by
  cases b with
  | true => exact yes (h.mp rfl)
  | false => exact no fun hP => Bool.false_ne_true (h.mpr hP)

theorem Gives.sees_bind {mark : String} {f : Bool → Parse β}
    (yes : r.ahead.lexeme = .punctuator mark → Gives source (f true) r Q)
    (no : r.ahead.lexeme ≠ .punctuator mark → Gives source (f false) r Q) :
    Gives source (sees mark >>= f) r Q := by
  unfold sees
  rw [bind_assoc]
  refine .ahead_bind ?_
  split
  · rename_i other hother
    rw [pure_bind]
    exact .test (by simp [hother]) yes no
  · rename_i hnone
    exact no (hnone mark)

/-- The same without a case split. -/
theorem Gives.seen_bind {mark : String} {f : Bool → Parse β}
    (k : ∀ seen, (seen = true → r.ahead.lexeme = .punctuator mark) → Gives source (f seen) r Q) :
    Gives source (sees mark >>= f) r Q :=
  .sees_bind (fun h => k true fun _ => h) fun _ => k false (by simp)

theorem Gives.seesKeyword_bind {word : String} {f : Bool → Parse β}
    (yes : r.ahead.lexeme = .keyword word → Gives source (f true) r Q)
    (no : r.ahead.lexeme ≠ .keyword word → Gives source (f false) r Q) :
    Gives source (seesKeyword word >>= f) r Q := by
  unfold seesKeyword
  rw [bind_assoc]
  refine .ahead_bind ?_
  split
  · rename_i other hother
    rw [pure_bind]
    exact .test (by simp [hother]) yes no
  · rename_i hnone
    exact no (hnone word)

/-- The same without a case split. -/
theorem Gives.seenKeyword_bind {word : String} {f : Bool → Parse β}
    (k : ∀ seen, (seen = true → r.ahead.lexeme = .keyword word) → Gives source (f seen) r Q) :
    Gives source (seesKeyword word >>= f) r Q :=
  .seesKeyword_bind (fun h => k true fun _ => h) fun _ => k false (by simp)

theorem Gives.seesName_bind {word : String} {f : Bool → Parse β}
    (yes : r.ahead.lexeme = .identifier word → Gives source (f true) r Q)
    (no : r.ahead.lexeme ≠ .identifier word → Gives source (f false) r Q) :
    Gives source (seesName word >>= f) r Q := by
  unfold seesName
  rw [bind_assoc]
  refine .ahead_bind ?_
  rw [pure_bind]
  refine .test ?_ yes no
  unfold Token.isNamed
  split
  · rename_i other hother
    simp [hother]
  · rename_i hnone
    simpa using hnone word

theorem Gives.seesEnd_bind {f : Bool → Parse β}
    (yes : r.ahead.lexeme = .endOfSource → Gives source (f true) r Q)
    (no : r.ahead.lexeme ≠ .endOfSource → Gives source (f false) r Q) :
    Gives source (seesEnd >>= f) r Q := by
  unfold seesEnd
  rw [bind_assoc]
  refine .ahead_bind ?_
  rw [pure_bind]
  exact .test (by simp) yes no

theorem Gives.expect_bind {mark : String} {f : Unit → Parse β}
    (k : ∀ next, r.ahead.lexeme = .punctuator mark → Gives source (f ()) (r.after next) Q) :
    Gives source (expect mark >>= f) r Q := by
  unfold expect
  rw [bind_assoc]
  refine .advance_bind fun next => ?_
  split
  · exact .of_fails ((fails_unexpected _).bind _)
  · rename_i h
    exact k next (Decidable.not_not.mp h)

theorem Gives.expectKeyword_bind {word : String} {f : Unit → Parse β}
    (k : ∀ next, r.ahead.lexeme = .keyword word → Gives source (f ()) (r.after next) Q) :
    Gives source (expectKeyword word >>= f) r Q := by
  unfold expectKeyword
  rw [bind_assoc]
  refine .advance_bind fun next => ?_
  split
  · exact .of_fails ((fails_unexpected _).bind _)
  · rename_i h
    exact k next (Decidable.not_not.mp h)

theorem Gives.accept_bind {mark : String} {f : Bool → Parse β}
    (yes : ∀ next, r.ahead.lexeme = .punctuator mark → Gives source (f true) (r.after next) Q)
    (no : r.ahead.lexeme ≠ .punctuator mark → Gives source (f false) r Q) :
    Gives source (accept mark >>= f) r Q := by
  unfold accept
  rw [bind_assoc]
  refine .sees_bind (fun h => ?_) no
  change Gives source ((advance >>= fun _ => Pure.pure true) >>= f) r Q
  rw [bind_assoc]
  exact .advance_bind fun next => yes next h

/-- A node reaches up to the edge, once a token was read. -/
theorem gives_node {start : Mark} {form : Form} {parts : List Node} {Q : Node → Reading → Prop}
    (k : ∀ span : Span, span.start = start.offset → (r.read ≠ [] → span.stop = r.edge) →
      Q (.mk form .part (some span) parts) r) :
    Gives source (node start form parts) r Q := by
  intro s n s' hs h
  cases h
  exact ⟨r, hs, .refl r, k _ rfl hs.behind⟩

/-- Making a node reads nothing. -/
theorem Gives.node_bind {start : Mark} {form : Form} {parts : List Node} {f : Node → Parse β}
    (k : ∀ span, Gives source (f (.mk form .part (some span) parts)) r Q) :
    Gives source (node start form parts >>= f) r Q :=
  (gives_node (Q := fun n later => later = r ∧ ∃ span, n = .mk form .part (some span) parts)
    fun span _ _ => ⟨rfl, span, rfl⟩).bind fun _ _ _ h => by
      obtain ⟨rfl, span, rfl⟩ := h
      exact k span

theorem gives_nodeFrom {token : Token} {form : Form} {parts : List Node}
    {Q : Node → Reading → Prop}
    (k : ∀ span : Span, span.start = token.start → (r.read ≠ [] → span.stop = r.edge) →
      Q (.mk form .part (some span) parts) r) :
    Gives source (nodeFrom token form parts) r Q := by
  refine gives_node fun span hstart hstop => k span (hstart.trans ?_) hstop
  unfold Mark.ofToken
  dsimp only
  split <;> rfl

theorem Gives.unexpectedAhead {f : β → Parse α} {Q : α → Reading → Prop} :
    Gives source (ahead >>= fun t => unexpected t >>= f) r Q :=
  .of_fails (.of_bind fun t => (fails_unexpected t).bind f)

/-- Moving the edge to the token ahead. -/
theorem gives_settle {Q : Unit → Reading → Prop} (h : Q () r.settled) :
    Gives source (modify fun s : State => { s with behind := Mark.ofCursor s.aheadStart }) r Q := by
  intro s u s' hs hrun
  cases hrun
  have hsettled : Fits source { s with behind := Mark.ofCursor s.aheadStart } r.settled :=
    { hs with behind := fun _ => hs.start, sound := hs.sound.settled }
  exact ⟨r.settled, hsettled, hs.sound.extends_settled, h⟩

/-- The end of a statement reads a semicolon, or nothing and may move the edge. -/
theorem gives_endStatement :
    Gives source endStatement r fun _ later =>
      (r.ahead.lexeme = .punctuator ";" ∧ ∃ next, later = r.after next) ∨ later = r ∨
        later = r.settled := by
  unfold endStatement
  refine .accept_bind (fun next h => .pure (.inl ⟨h, next, rfl⟩)) fun _ => ?_
  refine .after_still still_lineBreak fun broken => ?_
  split
  · exact .pure (.inr (.inl rfl))
  refine .seesEnd_bind (fun _ => ?_) fun _ => ?_
  · refine .sees_bind (fun _ => ?_) fun _ => ?_ <;> exact gives_settle (.inr (.inr rfl))
  · refine .sees_bind (fun _ => ?_) fun _ => ?_
    · exact gives_settle (.inr (.inr rfl))
    · exact .unexpectedAhead

/-! ## Productions around a production -/

section Around

variable {p : Parse α} {Q : α → Reading → Prop}

theorem Gives.isolate (hp : Gives source p r Q) : Gives source (isolate p) r Q := by
  refine .after_still still_context fun outer => .after_still (still_modifyContext _) fun _ => ?_
  refine hp.bind fun a later _ ha => .after_still still_context fun c => ?_
  split
  · exact .of_fails ((fails_unexpected _).bind _)
  · exact .after_still (still_modifyContext _) fun _ => .pure ha

theorem Gives.inherit (hp : Gives source p r Q) : Gives source (inherit p) r Q :=
  .after_still still_context fun _ => .after_still (still_modifyContext _) fun _ =>
    hp.bind fun _ _ _ ha => .after_still (still_modifyContext _) fun _ => .pure ha

theorem Gives.withIn {allowIn : Bool} (hp : Gives source p r Q) :
    Gives source (withIn allowIn p) r Q :=
  .after_still still_context fun _ => .after_still (still_modifyContext _) fun _ =>
    hp.bind fun _ _ _ ha => .after_still (still_modifyContext _) fun _ => .pure ha

theorem Gives.withLoop (hp : Gives source p r Q) : Gives source (withLoop p) r Q :=
  .after_still still_context fun _ => .after_still (still_modifyContext _) fun _ =>
    hp.bind fun _ _ _ ha => .after_still (still_modifyContext _) fun _ => .pure ha

theorem Gives.withStrictness (hp : Gives source p r Q) : Gives source (withStrictness p) r Q :=
  .after_still still_context fun _ =>
    hp.bind fun _ _ _ ha => .after_still (still_modifyContext _) fun _ => .pure ha

theorem Gives.withSuspension {allowYield await : Bool} (hp : Gives source p r Q) :
    Gives source (withSuspension allowYield await p) r Q :=
  .after_still still_context fun _ => .after_still (still_modifyContext _) fun _ =>
    hp.bind fun _ _ _ ha => .after_still (still_modifyContext _) fun _ => .pure ha

theorem Gives.keepingYield (hp : Gives source p r Q) : Gives source (keepingYield p) r Q :=
  .after_still still_context fun _ =>
    hp.bind fun _ _ _ ha => .after_still (still_modifyContext _) fun _ => .pure ha

end Around

/-! ## Repetition -/

/-- What a step of a repetition leads to: with another value the invariant holds again, without one
the result is as said. -/
def StepsTo (I J : List α → Reading → Prop) (reversed : List α) : Option α → Reading → Prop
  | none, later => J reversed later
  | some value, later => I (value :: reversed) later

/-- The values that a repetition has so far, last first, satisfy an invariant together with the
reading; the step keeps it, and where the step gives nothing, the result is as said. -/
theorem Gives.repeatStep {step : Parse (Option α)} {I J : List α → Reading → Prop}
    (hstep : ∀ reversed r, I reversed r → Gives source step r (StepsTo I J reversed)) :
    ∀ {fuel : Nat} {reversed : List α} {r : Reading}, I reversed r →
      Gives source (repeatStep step fuel reversed) r fun values later => J values.reverse later
  | 0, _, _, _ => .of_fails (fails_interrupt _)
  | fuel + 1, reversed, r, h => by
      refine (hstep reversed r h).bind fun value later _ hvalue => ?_
      cases value with
      | none => exact .pure (by simpa [StepsTo] using hvalue)
      | some value => exact Gives.repeatStep hstep hvalue

theorem Gives.many {step : Parse (Option α)} {I J : List α → Reading → Prop}
    (hstep : ∀ reversed r, I reversed r → Gives source step r (StepsTo I J reversed))
    (h : I [] r) : Gives source (many step) r fun values later => J values.reverse later :=
  .after_still still_budget fun _ => .repeatStep hstep h

/-- The same where the result is the invariant. -/
theorem Gives.many_of_invariant {step : Parse (Option α)} (I : List α → Reading → Prop)
    (hstep : ∀ reversed r, I reversed r → Gives source step r (StepsTo I I reversed))
    (h : I [] r) : Gives source (Grammar.many step) r fun values later => I values.reverse later :=
  .many hstep h

end EditionSurvey.Script.Grammar
