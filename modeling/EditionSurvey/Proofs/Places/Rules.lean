/-
  Proofs/Places/Rules.lean --- where nodes start, and where faults are reported.

  A production that begins in a state that knows its places (`State.Placed`) ends in one, or with an
  error at a place of the text (`Reported`); what it gives is placed too.  `Keeps text p R` says so,
  with `R` for what holds of the value.  A node starts where a token does and has the line and the
  column of that place (`Mark.Starts`), unless the token goes over several lines.

  There is one rule for each step that productions are made of.
-/
import EditionSurvey.Proofs.Grammar.Account
import EditionSurvey.Proofs.Lines

set_option autoImplicit false

namespace EditionSurvey.Script

/-! ## Places -/

/-- Where an error is reported.  The column counts from one. -/
inductive Reported (text : List Char) (e : SyntaxError) : Prop where
  /-- where no token can be read -/
  | misread (s : Scanner) (atToken : s.cursor.AtToken text) (opens : Opens text s.cursor.offset)
      (error : s.lex = .error e ∨ s.pattern = .error e) (place : Misread text s.cursor.offset e)
  /-- at the end of the text, in a comment that opens behind the last token and is never closed -/
  | unclosed (c : Cursor) (on : c.On text) (edge : c.offset = 0 ∨ IsEdge text c.offset)
      (error : c.skipBlanks = .error e) (place : Misread text c.offset e)
  /-- at a token, on the line of its end, with the column counted from the start of the line that was
  read last -/
  | token (t : Token) (last : Nat) (stands : t.Stands text) (edge : IsEdge text last)
      (line : e.line = lineAt text t.stop)
      (column : e.column = (t.start : Int) - lineStartAt text last + 1)
  /-- at the end of what was read, on the line of that end or of the end of the token ahead -/
  | behind (last reached : Nat) (edge : IsEdge text last) (edge' : IsEdge text reached)
      (line : e.line = lineAt text reached) (column : e.column = columnAt text last + 1)

namespace Grammar

/-- The line and the column of the mark are those of its offset. -/
structure Mark.On (text : List Char) (m : Mark) : Prop where
  line : m.line = lineAt text m.offset
  column : m.column = columnAt text m.offset

/-- A construct may start at the mark. -/
inductive Mark.Starts (text : List Char) (m : Mark) : Prop where
  /-- where a token starts, with the line and column of that place -/
  | here (opens : Opens text m.offset) (on : m.On text)
  /-- at a token that ends on a later line, counted from the line of its end -/
  | long (t : Token) (other : Nat) (stands : t.Stands text) (start : t.start = m.offset)
      (lt : t.start < lineStartAt text t.stop) (line : m.line = lineAt text t.stop - 1)
      (column : m.column = (t.start : Int) - lineStartAt text t.stop + lineStartAt text other)

end Grammar

/-- Every node of the tree but the head of an arrow function has a span that starts at a mark where a
construct may start. -/
def Node.Placed (text : List Char) (tree : Node) : Prop :=
  tree.All fun node => (∀ isAsync, node.form ≠ .arrowHead isAsync) →
    ∃ span, node.span = some span ∧ Grammar.Mark.Starts text ⟨span.start, span.line, span.column⟩

section

variable {text : List Char}

@[simp] theorem Node.placed_withRole {n : Node} (role : Role) :
    (n.withRole role).Placed text ↔ n.Placed text := by
  cases n
  rw [Node.Placed, Node.withRole, Node.all_mk, Node.Placed, Node.all_mk]
  rfl

theorem Node.placed_mk {form : Form} {role : Role} {span : Option Span} {parts : List Node}
    (hform : ∀ isAsync, form ≠ .arrowHead isAsync) :
    (Node.mk form role span parts).Placed text ↔
      (∃ place, span = some place ∧
        Grammar.Mark.Starts text ⟨place.start, place.line, place.column⟩) ∧
        ∀ part ∈ parts, part.Placed text := by
  rw [Node.Placed, Node.all_mk]
  exact and_congr_left' ⟨fun h => h hform, fun h _ => h⟩

theorem Node.placed_arrowHead {isAsync : Bool} {params : List Node}
    (h : ∀ n ∈ params, n.Placed text) : (Grammar.arrowHead isAsync params).Placed text :=
  Node.all_mk.mpr ⟨fun hhead => absurd rfl (hhead isAsync), h⟩

theorem Node.Placed.parts {n : Node} (h : n.Placed text) : ∀ part ∈ n.parts, part.Placed text := by
  cases n
  exact (Node.all_mk.mp h).2

end

namespace Grammar

section

variable {text : List Char} {m : Mark} {t : Token}

theorem Mark.on_ofCursor {c : Cursor} (h : c.On text) : (Mark.ofCursor c).On text where
  line := by rw [Mark.ofCursor, h.line]
  column := by rw [Mark.ofCursor, h.lineStart, columnAt]

/-- A token on one line has the line and the column of its start. -/
theorem Mark.starts_ofToken (h : t.Stands text) {lineStart : Nat} (other : Nat)
    (hother : lineStart = lineStartAt text other) : (Mark.ofToken t lineStart).Starts text := by
  have hline : t.line = lineAt text t.stop := h.line
  have hstart : t.lineStart = lineStartAt text t.stop := h.lineStart
  unfold Mark.ofToken
  dsimp only
  split
  · next hlong =>
      exact .long t other h rfl (by omega) (by simp [hline]) (by simp [hstart, hother])
  · next hshort =>
      obtain ⟨hstarts, hlines⟩ : lineStartAt text t.start = lineStartAt text t.stop ∧
          lineAt text t.start = lineAt text t.stop := same_line h.le (by omega)
      exact .here h.opens ⟨by simp [hline, hlines], by simp [columnAt, hstart, hstarts]⟩

/-- Reading a tree as a pattern moves no node. -/
theorem placed_each {ns : List Node} (h : ∀ n ∈ ns, n.Placed text) :
    ∀ n ∈ eachAsPattern ns, n.Placed text :=
  all_eachAsPattern (fun _ _ _ _ _ _ hhead _ hspan _ => hspan hhead) h

theorem placed_asPattern {n : Node} (h : n.Placed text) : (asPattern n).Placed text :=
  all_asPattern (fun _ _ _ _ _ _ hhead _ hspan _ => hspan hhead) h

end

/-! ## States -/

/-- The token of a pending default is one of the text. -/
def Context.Placed (text : List Char) (c : Context) : Prop :=
  ∀ t, c.pendingDefault = some t → t.Stands text

/-- The state knows where the scanner and the token ahead are. -/
structure State.Scanned (text : List Char) (s : State) : Prop where
  cursor : s.scanner.cursor.On text
  stop : s.scanner.cursor.offset = s.ahead.stop
  aheadStart : s.aheadStart.AtToken text
  opens : Opens text s.aheadStart.offset
  ahead : s.ahead.Stands text
  context : s.context.Placed text

/-- The state knows its places: also the end of what was read. -/
structure State.Placed (text : List Char) (s : State) : Prop extends s.Scanned text where
  behind : s.behind.On text
  edge : IsEdge text s.behind.offset

variable {text : List Char} {s : State}

theorem State.Scanned.edge_stop (h : s.Scanned text) : IsEdge text s.scanner.cursor.offset :=
  .inr ⟨s.ahead, h.ahead, h.stop.symm⟩

/-- The gap behind the token ahead leads to another token. -/
theorem State.Scanned.opens_next (h : s.Scanned text) {start : Nat}
    (hgap : IsGap text s.scanner.cursor.offset start) : Opens text start :=
  .next h.ahead.opens h.ahead.isRead (h.stop ▸ hgap)

theorem State.Placed.withContext (h : s.Placed text) {c : Context} (hc : c.Placed text) :
    State.Placed text { s with context := c } :=
  { h with context := hc }

theorem isGap_of_skipBlanks {c after : Cursor} (h : c.On text)
    (hskip : c.skipBlanks = .ok after) : IsGap text c.offset after.offset :=
  ⟨c.line, c.lineStart, after, h.rest ▸ hskip, rfl⟩

/-! ## How productions end -/

/-- A run ends with a value and a state as said, or with an error at a place of the text, or it is
given up. -/
def Ends {α : Type} (text : List Char) (Q : α → State → Prop) :
    Except Interruption (α × State) → Prop
  | .ok (a, s) => Q a s
  | .error (.syntaxError e) => Reported text e
  | .error _ => True

/-- A production that begins in a state that knows its places ends in one, with a value as said. -/
def Keeps {α : Type} (text : List Char) (p : Parse α) (R : α → Prop) : Prop :=
  ∀ s, s.Placed text → Ends text (fun a s' => s'.Placed text ∧ R a) (p s)

variable {α β : Type} {p : Parse α} {q : Parse β} {f : α → Parse β} {R : α → Prop} {Q : β → Prop}

theorem Ends.bind {P : α → State → Prop} {P' : β → State → Prop} (hp : Ends text P (p s))
    (hf : ∀ a s', P a s' → Ends text P' (f a s')) : Ends text P' ((p >>= f) s) := by
  rw [show (p >>= f) s = p s >>= fun found => f found.1 found.2 from rfl]
  cases hrun : p s with
  | ok found =>
      rw [hrun] at hp
      exact hf found.1 found.2 hp
  | error i =>
      rw [hrun] at hp
      cases i with
      | syntaxError e => exact hp
      | nestsTooDeeply => trivial
      | templateWithoutHead => trivial

theorem Ends.mono {P P' : α → State → Prop} {end_ : Except Interruption (α × State)}
    (h : Ends text P end_) (hP : ∀ a s', P a s' → P' a s') : Ends text P' end_ := by
  cases end_ with
  | ok found => exact hP _ _ h
  | error i =>
      cases i with
      | syntaxError e => exact h
      | nestsTooDeeply => trivial
      | templateWithoutHead => trivial

theorem Ends.get_bind {P : β → State → Prop} {f : State → Parse β} (h : Ends text P (f s s)) :
    Ends text P ((get >>= f) s) := h

/-- A step of the scanner changes nothing. -/
theorem ends_scan {step : Except SyntaxError α} (h : ∀ e, step = .error e → Reported text e) :
    Ends text (fun a s' => step = .ok a ∧ s = s') (scan step s) := by
  cases step with
  | ok a => exact ⟨rfl, rfl⟩
  | error e => exact h e rfl

theorem Keeps.pure {a : α} (h : R a) : Keeps text (Pure.pure a : Parse α) R := fun _ hs => ⟨hs, h⟩

theorem Keeps.bind (hp : Keeps text p R) (hf : ∀ a, R a → Keeps text (f a) Q) :
    Keeps text (p >>= f) Q :=
  fun s hs => (hp s hs).bind fun a s' ⟨hs', ha⟩ => hf a ha s' hs'

/-- What gives nothing of interest may stand before anything. -/
theorem Keeps.before (hp : Keeps text p fun _ => True) (hf : ∀ a, Keeps text (f a) Q) :
    Keeps text (p >>= f) Q :=
  hp.bind fun a _ => hf a

theorem Keeps.ite {c : Prop} [Decidable c] {p q : Parse α} (hp : Keeps text p R)
    (hq : Keeps text q R) : Keeps text (if c then p else q) R := by
  split
  · exact hp
  · exact hq

/-- Behind a production that fails there may be anything. -/
theorem Keeps.fails (hp : Keeps text p fun _ => False) : Keeps text (p >>= f) Q :=
  hp.bind fun _ h => h.elim

/-- Where the condition holds, the production fails. -/
theorem Keeps.unless {c : Prop} [Decidable c] (hp : Keeps text p fun _ => False)
    (hq : Keeps text q Q) : Keeps text (if c then p >>= f else q) Q :=
  .ite hp.fails hq

/-! ## The steps of productions -/

theorem keeps_get : Keeps text (get : Parse State) (State.Placed text) := fun _ hs => ⟨hs, hs⟩

theorem keeps_tooDeep : Keeps text (interrupt .nestsTooDeeply : Parse α) R := fun _ _ => trivial

theorem keeps_headless : Keeps text (interrupt .templateWithoutHead : Parse α) R :=
  fun _ _ => trivial

theorem keeps_report {e : SyntaxError} (h : Reported text e) :
    Keeps text (interrupt (.syntaxError e) : Parse α) R := fun _ _ => h

theorem keeps_context : Keeps text context (Context.Placed text) :=
  keeps_get.bind fun _ hs => .pure hs.context

theorem keeps_modifyContext {f : Context → Context}
    (hf : ∀ c, c.Placed text → (f c).Placed text) : Keeps text (modifyContext f) fun _ => True :=
  fun s hs => ⟨hs.withContext (hf s.context hs.context), trivial⟩

/-- What does not change the pending default keeps its place. -/
theorem keeps_adjust {f : Context → Context}
    (hf : ∀ c, (f c).pendingDefault = c.pendingDefault) :
    Keeps text (modifyContext f) fun _ => True :=
  keeps_modifyContext fun c hc t ht => hc t (hf c ▸ ht)

/-- What drops the pending default has none to place. -/
theorem keeps_forget {f : Context → Context} (hf : ∀ c, (f c).pendingDefault = none) :
    Keeps text (modifyContext f) fun _ => True :=
  keeps_modifyContext fun c _ t ht => by simp [hf c] at ht

theorem keeps_notPattern : Keeps text notPattern fun _ => True := keeps_adjust fun _ => rfl

theorem keeps_ahead : Keeps text ahead (Token.Stands text) :=
  keeps_get.bind fun _ hs => .pure hs.ahead

theorem keeps_here : Keeps text here (Mark.Starts text) :=
  keeps_get.bind fun _ hs => .pure (.here hs.opens (Mark.on_ofCursor hs.aheadStart.toOn))

theorem keeps_lineBreak : Keeps text lineBreak fun _ => True :=
  keeps_get.bind fun _ _ => .pure trivial

theorem keeps_budget : Keeps text budget fun _ => True := keeps_get.bind fun _ _ => .pure trivial

theorem keeps_strict : Keeps text strict fun _ => True := keeps_context.bind fun _ _ => .pure trivial

/-! ### Faults -/

theorem keeps_failAt {t : Token} (ht : t.Stands text) (fault : Fault) :
    Keeps text (failAt t fault : Parse α) R := by
  refine keeps_get.bind fun s hs => keeps_report ?_
  refine .token t s.behind.offset ht hs.edge (by simp [ht.line]) ?_
  simp only [hs.behind.column, columnAt]
  omega

theorem keeps_failBehind (fault : Fault) : Keeps text (failBehind fault : Parse α) R := by
  refine keeps_get.bind fun s hs => keeps_report ?_
  exact .behind s.behind.offset s.behind.offset hs.edge hs.edge hs.behind.line
    (by rw [hs.behind.column])

theorem keeps_failAhead (fault : Fault) : Keeps text (failAhead fault : Parse α) R := by
  refine keeps_get.bind fun s hs => keeps_report ?_
  exact .behind s.behind.offset s.scanner.cursor.offset hs.edge hs.edge_stop
    (by simp [hs.cursor.line]) (by rw [hs.behind.column])

theorem keeps_unexpected {t : Token} (ht : t.Stands text) :
    Keeps text (unexpected t : Parse α) R :=
  keeps_strict.before fun _ => keeps_failAt ht _

theorem Keeps.unexpectedAhead : Keeps text (ahead >>= fun t => unexpected t >>= f) Q :=
  keeps_ahead.bind fun _ ht => .fails (keeps_unexpected ht)

theorem keeps_unexpectedAhead : Keeps text (do unexpected (← ahead) : Parse α) R :=
  keeps_ahead.bind fun _ ht => keeps_unexpected ht

/-! ### Tokens -/

theorem stands_reserveStrict {t : Token} (ht : t.Stands text) (strict : Bool) :
    (reserveStrict strict t).Stands text := by
  obtain h | ⟨name, -, h⟩ := reserveStrict_cases strict t
  · rwa [h]
  · rw [h]
    exact ht.withLexeme _

theorem stop_reserveStrict (t : Token) (strict : Bool) : (reserveStrict strict t).stop = t.stop := by
  obtain h | ⟨name, -, h⟩ := reserveStrict_cases strict t <;> rw [h]

/-- The state behind the token ahead: what was ahead is read, and the scanner is behind another
token. -/
theorem ends_advance (hcursor : s.scanner.cursor.On text)
    (hedge : s.scanner.cursor.offset = 0 ∨ IsEdge text s.scanner.cursor.offset)
    (hopens : ∀ start, IsGap text s.scanner.cursor.offset start → Opens text start)
    (hcontext : s.context.Placed text) :
    Ends text (fun t s' => t = s.ahead ∧ s'.Scanned text ∧
      s'.behind = Mark.ofCursor s.scanner.cursor) (advance s) := by
  have hblanks := hcursor.skipBlanks
  refine .get_bind ((ends_scan fun e herror =>
    .unclosed _ hcursor hedge herror (hblanks.error herror)).bind ?_)
  rintro cursor _ ⟨hskip, rfl⟩
  have hat := hblanks.ok hskip
  have hopens := hopens _ (isGap_of_skipBlanks hcursor hskip)
  have hlex := Scanner.stands_lex (s := { s.scanner with cursor }) hat hopens
  refine (ends_scan fun e herror =>
    .misread _ hat hopens (.inl herror) (hlex.error herror)).bind ?_
  rintro ⟨token, scanner⟩ _ ⟨hread, rfl⟩
  obtain ⟨htoken, hon, hstop⟩ := hlex.ok hread
  refine ⟨rfl, ?_, rfl⟩
  exact {
    cursor := hon
    stop := hstop.trans (stop_reserveStrict token _).symm
    aheadStart := hat
    opens := hopens
    ahead := stands_reserveStrict htoken _
    context := hcontext }

theorem State.Scanned.advance (h : s.Scanned text) :
    Ends text (fun t s' => s'.Placed text ∧ t.Stands text) (Grammar.advance s) := by
  refine Ends.mono (ends_advance h.cursor (.inr h.edge_stop) (fun _ => h.opens_next) h.context) ?_
  rintro t s' ⟨rfl, hs', hbehind⟩
  refine ⟨{ hs' with behind := ?_, edge := ?_ }, h.ahead⟩
  · exact hbehind ▸ Mark.on_ofCursor h.cursor
  · exact hbehind ▸ h.edge_stop

theorem keeps_advance : Keeps text advance (Token.Stands text) := fun _ hs => hs.toScanned.advance

theorem keeps_advancePattern : Keeps text advancePattern (Token.Stands text) := by
  intro s hs
  have hpattern :=
    Scanner.stands_pattern (s := { s.scanner with cursor := s.aheadStart }) hs.aheadStart hs.opens
  refine .get_bind ((ends_scan fun e herror =>
    .misread _ hs.aheadStart hs.opens (.inr herror) (hpattern.error herror)).bind ?_)
  rintro ⟨token, scanner⟩ _ ⟨hread, rfl⟩
  obtain ⟨htoken, hon, hstop⟩ := hpattern.ok hread
  refine Ends.bind (P := fun _ s' => s'.Scanned text) ?_ fun _ s' hs' => hs'.advance
  exact {
    cursor := hon
    stop := hstop
    aheadStart := hs.aheadStart
    opens := hs.opens
    ahead := htoken
    context := hs.context }

theorem keeps_peekBeyond : Keeps text peekBeyond fun _ => True := by
  intro s hs
  have hblanks := hs.cursor.skipBlanks
  have hnext : ∀ e, s.scanner.next = .error e → Reported text e := by
    intro e herror
    unfold Scanner.next at herror
    cases hskip : s.scanner.cursor.skipBlanks with
    | error e' =>
        rw [hskip] at herror
        cases herror
        exact .unclosed _ hs.cursor (.inr hs.edge_stop) hskip (hblanks.error hskip)
    | ok cursor =>
        rw [hskip] at herror
        have hat := hblanks.ok hskip
        have hopens := hs.opens_next (isGap_of_skipBlanks hs.cursor hskip)
        have hlex := Scanner.stands_lex (s := { s.scanner with cursor }) hat hopens
        exact .misread _ hat hopens (.inl herror) (hlex.error herror)
  refine .get_bind ((ends_scan hnext).bind ?_)
  rintro ⟨token, scanner⟩ _ ⟨-, rfl⟩
  exact ⟨{ hs with }, trivial⟩

/-! ### Punctuators and words -/

theorem keeps_sees (mark : String) : Keeps text (sees mark) fun _ => True := by
  refine keeps_ahead.bind fun t _ => ?_
  split <;> exact .pure trivial

theorem keeps_seesKeyword (word : String) : Keeps text (seesKeyword word) fun _ => True := by
  refine keeps_ahead.bind fun t _ => ?_
  split <;> exact .pure trivial

theorem keeps_seesName (word : String) : Keeps text (seesName word) fun _ => True :=
  keeps_ahead.bind fun _ _ => .pure trivial

theorem keeps_seesEnd : Keeps text seesEnd fun _ => True :=
  keeps_ahead.bind fun _ _ => .pure trivial

theorem keeps_expect (mark : String) : Keeps text (expect mark) fun _ => True :=
  keeps_advance.bind fun _ ht => .ite (keeps_unexpected ht) (.pure trivial)

theorem keeps_expectKeyword (word : String) : Keeps text (expectKeyword word) fun _ => True :=
  keeps_advance.bind fun _ ht => .ite (keeps_unexpected ht) (.pure trivial)

theorem keeps_accept (mark : String) : Keeps text (accept mark) fun _ => True :=
  (keeps_sees mark).before fun _ => .ite (keeps_advance.bind fun _ _ => .pure trivial) (.pure trivial)

/-- A mark may be left out before the one that closes the list. -/
theorem Keeps.expectUnless {close mark : String} (hq : Keeps text q Q) :
    Keeps text (do
      if !(← sees close) then expect mark
      q) Q :=
  (keeps_sees _).before fun _ => .ite ((keeps_expect _).before fun _ => hq) hq

theorem keeps_seesAssignment : Keeps text seesAssignment fun _ => True := by
  refine keeps_ahead.bind fun t _ => ?_
  split <;> exact .pure trivial

theorem keeps_endStatement : Keeps text endStatement fun _ => True := by
  have hsettle : Keeps text
      (modify fun s : State => { s with behind := Mark.ofCursor s.aheadStart }) fun _ => True :=
    fun s hs => ⟨{ hs with
      behind := Mark.on_ofCursor hs.aheadStart.toOn
      edge := .inl hs.opens }, trivial⟩
  unfold endStatement
  refine (keeps_accept _).before fun _ => .ite (.pure trivial) ?_
  refine keeps_lineBreak.before fun _ => .ite (.pure trivial) ?_
  refine keeps_seesEnd.before fun _ => (keeps_sees _).before fun _ => .ite ?_ hsettle
  exact .unexpectedAhead

/-! ### Nodes -/

theorem keeps_node {start : Mark} {form : Form} {parts : List Node} (hstart : start.Starts text)
    (hparts : ∀ n ∈ parts, n.Placed text) : Keeps text (node start form parts) (Node.Placed text) :=
  keeps_get.bind fun _ _ => .pure (Node.all_mk.mpr ⟨fun _ => ⟨_, rfl, hstart⟩, hparts⟩)

theorem keeps_nodeFrom {t : Token} {form : Form} {parts : List Node} (ht : t.Stands text)
    (hparts : ∀ n ∈ parts, n.Placed text) : Keeps text (nodeFrom t form parts) (Node.Placed text) :=
  keeps_node (Mark.starts_ofToken ht 0 rfl) hparts

theorem keeps_leaf {start : Mark} {form : Form} (hstart : start.Starts text) :
    Keeps text (node start form []) (Node.Placed text) :=
  keeps_node hstart (by simp)

/-! ## Productions around a production -/

section Around

theorem Keeps.isolate (hp : Keeps text p R) : Keeps text (isolate p) R := by
  refine keeps_context.bind fun outer houter => ?_
  refine .before (keeps_forget fun _ => rfl) fun _ => ?_
  refine hp.bind fun a ha => keeps_context.bind fun c hc => ?_
  split
  · next t ht => exact .fails (keeps_unexpected (hc t ht))
  · dsimp only
    exact .before (keeps_modifyContext fun _ _ => houter) fun _ => .pure ha

theorem Keeps.inherit (hp : Keeps text p R) : Keeps text (inherit p) R := by
  refine keeps_context.bind fun outer houter => ?_
  refine .before (keeps_forget fun _ => rfl) fun _ => ?_
  refine hp.bind fun a ha => (keeps_modifyContext fun c hc t ht => ?_).before fun _ => .pure ha
  obtain ht | ⟨-, ht⟩ := Option.or_eq_some_iff.mp ht
  · exact houter t ht
  · exact hc t ht

theorem Keeps.withIn {allowIn : Bool} (hp : Keeps text p R) : Keeps text (withIn allowIn p) R :=
  keeps_context.bind fun _ _ => .before (keeps_adjust fun _ => rfl) fun _ =>
    hp.bind fun _ ha => .before (keeps_adjust fun _ => rfl) fun _ => .pure ha

theorem Keeps.withLoop (hp : Keeps text p R) : Keeps text (withLoop p) R :=
  keeps_context.bind fun _ _ => .before (keeps_adjust fun _ => rfl) fun _ =>
    hp.bind fun _ ha => .before (keeps_adjust fun _ => rfl) fun _ => .pure ha

theorem Keeps.withStrictness (hp : Keeps text p R) : Keeps text (withStrictness p) R :=
  keeps_context.bind fun _ _ =>
    hp.bind fun _ ha => .before (keeps_adjust fun _ => rfl) fun _ => .pure ha

theorem Keeps.withSuspension {allowYield await : Bool} (hp : Keeps text p R) :
    Keeps text (withSuspension allowYield await p) R :=
  keeps_context.bind fun _ _ => .before (keeps_adjust fun _ => rfl) fun _ =>
    hp.bind fun _ ha => .before (keeps_adjust fun _ => rfl) fun _ => .pure ha

theorem Keeps.keepingYield (hp : Keeps text p R) : Keeps text (keepingYield p) R :=
  keeps_context.bind fun _ _ =>
    hp.bind fun _ ha => .before (keeps_adjust fun _ => rfl) fun _ => .pure ha

end Around

/-! ## Repetition -/

theorem Keeps.repeatStep {step : Parse (Option α)}
    (hstep : Keeps text step fun found => ∀ a ∈ found, R a) :
    ∀ {fuel : Nat} {reversed : List α}, (∀ a ∈ reversed, R a) →
      Keeps text (repeatStep step fuel reversed) fun values => ∀ a ∈ values, R a
  | 0, _, _ => keeps_tooDeep
  | fuel + 1, reversed, h => by
      refine hstep.bind fun found hfound => ?_
      split
      · exact .pure (by simpa using h)
      · next value => exact .repeatStep hstep (List.forall_mem_cons.mpr ⟨hfound value rfl, h⟩)

theorem Keeps.many {step : Parse (Option α)}
    (hstep : Keeps text step fun found => ∀ a ∈ found, R a) :
    Keeps text (many step) fun values => ∀ a ∈ values, R a :=
  keeps_budget.before fun _ => .repeatStep hstep (by simp)

/-! ## Productions -/

/-- The production gives a tree whose nodes are placed. -/
abbrev Places (text : List Char) (p : Parse Node) : Prop := Keeps text p (Node.Placed text)

/-- The pattern and the tokens of its names are placed. -/
def Bound.Placed (text : List Char) (bound : Bound) : Prop :=
  bound.1.Placed text ∧ ∀ t ∈ bound.2, t.Stands text

/-- The productions for the inside of a construct place what they give. -/
structure Productions.Placed (text : List Char) (g : Productions) : Prop where
  assignment : Places text g.assignment
  unary : Places text g.unary
  power : Places text g.power
  callee : Places text g.callee
  operand : Places text g.operand
  binding : ∀ kind, Keeps text (g.binding kind) (Bound.Placed text)
  statement : Places text g.statement
  item : Places text g.item

variable {g : Productions}

/-- Productions behind commas. -/
theorem Keeps.commas {p : Parse Node} (hp : Places text p) :
    Keeps text (Grammar.many do if ← accept "," then return some (← p) else return none)
      fun list => ∀ n ∈ list, n.Placed text := by
  refine .many ((keeps_accept _).before fun _ => .ite ?_ ?_)
  · exact hp.bind fun n hn => .pure (by simpa using hn)
  · exact .pure (by simp)

theorem places_expression (hg : g.Placed text) : Places text (expression g) := by
  refine keeps_ahead.bind fun t ht => hg.assignment.isolate.bind fun first hfirst => ?_
  refine (keeps_sees _).before fun _ => .ite (.pure hfirst) ?_
  refine hg.assignment.isolate.commas.bind fun rest hrest => ?_
  exact keeps_nodeFrom ht (List.forall_mem_cons.mpr ⟨hfirst, hrest⟩)

theorem places_propertyWord : Places text propertyWord := by
  refine keeps_here.bind fun start hstart => keeps_advance.bind fun t ht => ?_
  exact .unless (keeps_unexpected ht) (keeps_leaf hstart)

end Grammar

end EditionSurvey.Script
