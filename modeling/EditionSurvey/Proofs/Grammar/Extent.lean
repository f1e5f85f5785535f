/-
  Proofs/Grammar/Extent.lean --- where an expression begins and ends among the tokens.

  The parentheses around an expression are no part of its node.  So where an expression was read, its
  node begins behind some opening parentheses and ends before some closing ones (`Whole`), or it is a
  list in parentheses that waits for an arrow (`Waits`).
-/
import EditionSurvey.Proofs.Grammar.Account

set_option autoImplicit false

namespace EditionSurvey.Script.Grammar

variable {source : List Char} {r later last : Reading} {n : Node} {ns : List Node}

/-- At least one token was read, and the first one starts where the token ahead does: it is that
token, or a regular expression that was read in its place. -/
def Past (r later : Reading) : Prop :=
  ∃ t next, t.start = r.ahead.start ∧ t.start ≤ t.stop ∧ ((r.withAhead t).after next).Extends later

/-- From the edge of the first reading to the offset there are only opening parentheses. -/
def BeginsAt (r later : Reading) (start : Nat) : Prop :=
  r.edge ≤ start ∧ start ≤ later.edge ∧
    ∃ n, (between later.read r.edge start).map Token.lexeme = punctuators (List.replicate n "(")

/-- From the offset to the edge there are only closing parentheses. -/
def EndsAt (later : Reading) (stop : Nat) : Prop :=
  stop ≤ later.edge ∧ ∃ n, later.since stop = punctuators (List.replicate n ")")

/-- From the offset to the edge there are only closing parentheses, and a comma before the last one
or none. -/
def EndsList (later : Reading) (stop : Nat) : Prop :=
  stop ≤ later.edge ∧ ∃ (n : Nat) (comma : Bool),
    later.since stop =
      punctuators (List.replicate n ")" ++ if comma then [",", ")"] else [])

/-- The node spans what was read, but for the parentheses around it.  So does the last one of
expressions with commas between them.  A name has no parts, and parameters span nothing. -/
structure Whole (r later : Reading) (n : Node) : Prop where
  span : ∃ span, n.span = some span ∧ BeginsAt r later span.start ∧ EndsAt later span.stop
  last : n.form = .sequence → ∀ last, n.parts.getLast? = some last →
    ∃ stop, last.stop? = some stop ∧ EndsAt later stop
  name : ∀ name, n.form = .identifier name → n.parts = []
  head : ∀ isAsync, n.form ≠ .arrowHead isAsync

/-- A node of the form may span what was read, wherever its parts end. -/
@[simp] def Spans (form : Form) (parts : List Node) : Prop :=
  form ≠ .sequence ∧ (∀ name, form = .identifier name → parts = []) ∧
    ∀ isAsync, form ≠ .arrowHead isAsync

/-- The node is a list in parentheses that waits for an arrow. -/
def Waits (later : Reading) (n : Node) : Prop :=
  ∃ isAsync params, n = arrowHead isAsync params ∧ (∀ param ∈ params, param.Headless) ∧
    ∀ last, params.getLast? = some last → ∃ stop, last.stop? = some stop ∧ EndsList later stop

/-- The node is what an operand or an expression of operands reads. -/
structure Reads (r later : Reading) (n : Node) : Prop where
  past : Past r later
  ahead : r.ahead.lexeme ≠ .punctuator "=>"
  node : Whole r later n ∨ Waits later n

/-! ## Places -/

theorem Past.of_after {next : Token} (hr : r.Sound source) (h : (r.after next).Extends later) :
    Past r later :=
  ⟨r.ahead, next, rfl, hr.ahead_le, h⟩

theorem Past.trans (h : Past r later) (h' : later.Extends last) : Past r last := by
  obtain ⟨t, next, hstart, hspan, h⟩ := h
  exact ⟨t, next, hstart, hspan, h.trans h'⟩

theorem Past.ahead_le (h : Past r later) : r.ahead.start ≤ later.edge := by
  obtain ⟨t, next, hstart, hspan, h⟩ := h
  exact Nat.le_trans (hstart ▸ hspan) h.1

theorem Past.extends (h : Past r later) (hr : r.Sound source) : r.Extends later := by
  obtain ⟨t, next, hstart, hspan, h⟩ := h
  have hedge := hstart ▸ hr.edge
  refine Reading.Extends.trans ⟨Nat.le_trans hedge hspan, [t], rfl, ?_⟩ h
  simpa using hedge

theorem Past.read_ne_nil (h : Past r later) : later.read ≠ [] := by
  obtain ⟨t, next, -, -, h⟩ := h
  exact h.read_ne_nil ((r.withAhead t).after_read_ne_nil next)

/-- Between the edge and the token ahead there is no token. -/
theorem Past.between_ahead (h : Past r later) (hr : r.Sound source) :
    between later.read r.edge r.ahead.start = [] := by
  obtain ⟨t, next, hstart, hspan, h⟩ := h
  have hle : r.ahead.start ≤ t.stop := hstart ▸ hspan
  rw [between_extends h hle, Reading.after_read, between_append]
  exact List.append_eq_nil_iff.mpr
    ⟨between_eq_nil_of_ge hr.stops, between_eq_nil_of_le (by simp [Reading.withAhead, hstart])⟩

/-- What begins at the token ahead begins at once. -/
theorem Past.beginsAt (h : Past r later) (hr : r.Sound source) :
    BeginsAt r later r.ahead.start :=
  ⟨hr.edge, h.ahead_le, 0, by rw [h.between_ahead hr]; rfl⟩

theorem endsAt_edge (h : later.Sound source) : EndsAt later later.edge :=
  ⟨Nat.le_refl _, 0, since_edge h⟩

theorem EndsAt.after {stop : Nat} (h : EndsAt later stop) (hlater : later.Sound source)
    (hahead : later.ahead.lexeme = .punctuator ")") (next : Token) :
    EndsAt (later.after next) stop := by
  obtain ⟨hle, n, hsince⟩ := h
  refine ⟨Nat.le_trans hle (hlater.extends_after next).1, n + 1, ?_⟩
  rw [since_after hlater hle hahead, hsince, List.replicate_succ']
  simp [punctuators]

theorem EndsAt.endsList {stop : Nat} (h : EndsAt later stop) : EndsList later stop := by
  obtain ⟨hle, n, hsince⟩ := h
  exact ⟨hle, n, false, by simpa using hsince⟩

/-- What begins behind an opening parenthesis begins there too from before it. -/
theorem BeginsAt.group {start : Nat} {next : Token} (h : BeginsAt (r.after next) later start)
    (hr : r.Sound source) (hnext : (r.after next).Sound source)
    (hextends : (r.after next).Extends later) (hahead : r.ahead.lexeme = .punctuator "(") :
    BeginsAt r later start := by
  obtain ⟨hstart, hlater, n, hmarks⟩ := h
  have hedge := (hr.extends_after next).1
  refine ⟨Nat.le_trans hedge hstart, hlater, n + 1, ?_⟩
  rw [between_split hnext hextends hedge hstart, hmarks,
    since_after hr (Nat.le_refl _) hahead, since_edge hr, List.replicate_succ]
  rfl

theorem BeginsAt.mono {start : Nat} (h : BeginsAt r later start) (h' : later.Extends last) :
    BeginsAt r last start := by
  obtain ⟨hstart, hlater, n, hmarks⟩ := h
  refine ⟨hstart, Nat.le_trans hlater h'.1, n, ?_⟩
  rw [between_extends h' hlater, hmarks]

/-! ## Nodes -/

/-- A node from the token ahead to the edge spans what was read. -/
theorem Past.whole {form : Form} {role : Role} {span : Span} {parts : List Node} (h : Past r later)
    (hr : r.Sound source) (hlater : later.Sound source) (hstart : span.start = r.ahead.start)
    (hstop : later.read ≠ [] → span.stop = later.edge) (hform : Spans form parts) :
    Whole r later (.mk form role (some span) parts) where
  span := by
    refine ⟨span, rfl, ?_, ?_⟩
    · rw [hstart]
      exact h.beginsAt hr
    · rw [hstop h.read_ne_nil]
      exact endsAt_edge hlater
  last hsequence := absurd hsequence hform.1
  name := hform.2.1
  head := hform.2.2

/-- Parentheses around an expression are no part of it. -/
theorem Whole.group {next next' : Token} (h : Whole (r.after next) later n) (hr : r.Sound source)
    (hnext : (r.after next).Sound source) (hlater : later.Sound source)
    (hextends : (r.after next).Extends later) (hopen : r.ahead.lexeme = .punctuator "(")
    (hclose : later.ahead.lexeme = .punctuator ")") : Whole r (later.after next') n where
  span := by
    obtain ⟨span, hspan, hbegins, hends⟩ := h.span
    exact ⟨span, hspan, (hbegins.group hr hnext hextends hopen).mono (hlater.extends_after next'),
      hends.after hlater hclose next'⟩
  last hform last hlast := by
    obtain ⟨stop, hstop, hends⟩ := h.last hform last hlast
    exact ⟨stop, hstop, hends.after hlater hclose next'⟩
  name := h.name
  head := h.head

theorem Whole.stop (h : Whole r later n) : ∃ stop, n.stop? = some stop ∧ EndsAt later stop := by
  obtain ⟨span, hspan, -, hends⟩ := h.span
  exact ⟨span.stop, by simp [Node.stop?, hspan], hends⟩

theorem Whole.start (h : Whole r later n) : ∃ start, n.start? = some start ∧ BeginsAt r later start := by
  obtain ⟨span, hspan, hbegins, -⟩ := h.span
  exact ⟨span.start, by simp [Node.start?, hspan], hbegins⟩

/-! ## What productions add -/

/-- The production gives a node that is accounted for. -/
def Adds (source : List Char) (p : Parse Node) : Prop :=
  ∀ {r : Reading} {ns : List Node}, Accounted source r ns →
    Gives source p r fun n later => Accounted source later (n :: ns)

/-- The production gives a node that is accounted for and spans what was read. -/
def AddsWhole (source : List Char) (p : Parse Node) : Prop :=
  ∀ {r : Reading} {ns : List Node}, Accounted source r ns →
    Gives source p r fun n later =>
      Accounted source later (n :: ns) ∧ Past r later ∧ Whole r later n

/-- The production gives a node that spans what was read, in which no head waits for an arrow. -/
def AddsSealed (source : List Char) (p : Parse Node) : Prop :=
  ∀ {r : Reading} {ns : List Node}, Accounted source r ns →
    Gives source p r fun n later =>
      Accounted source later (n :: ns) ∧ Past r later ∧ Whole r later n ∧ n.Headless

/-- The production gives an expression of operands, or a list that waits for an arrow. -/
def AddsOperand (source : List Char) (p : Parse Node) : Prop :=
  ∀ {r : Reading} {ns : List Node}, Accounted source r ns →
    Gives source p r fun n later => Accounted source later (n :: ns) ∧ Reads r later n

/-- Where `var` binds a name, a template may be taken for the name `let`, or something newer is shown
anyway. -/
def MayBind (kind : Option String) (r : Reading) (ns : List Node) : Prop :=
  kind = some "var" →
    (r.lexemes.getLast? = some (.keyword "var") ∨ r.lexemes.getLast? = some (.punctuator ",")) ∨
      ∃ n ∈ ns, n.Shows

theorem mayBind_of_ne {kind : Option String} (h : kind ≠ some "var") : MayBind kind r ns :=
  fun heq => absurd heq h

theorem mayBind_of_shows {kind : Option String} (h : ∃ n ∈ ns, n.Shows) : MayBind kind r ns :=
  fun _ => .inr h

/-- The production gives a name or a pattern of a declaration of the kind, with nothing behind it. -/
def AddsBound (source : List Char) (kind : Option String) (p : Parse Bound) : Prop :=
  ∀ {r : Reading} {ns : List Node}, Accounted source r ns → MayBind kind r ns →
    Gives source p r fun bound later =>
      Accounted source later (bound.1 :: ns) ∧ bound.1.stop? = some later.edge

theorem AddsSealed.whole {p : Parse Node} (hp : AddsSealed source p) : AddsWhole source p :=
  fun h => (hp h).mono fun _ _ _ ⟨h, hpast, hn, _⟩ => ⟨h, hpast, hn⟩

theorem AddsWhole.adds {p : Parse Node} (hp : AddsWhole source p) : Adds source p :=
  fun h => (hp h).mono fun _ _ _ hn => hn.1

theorem AddsOperand.adds {p : Parse Node} (hp : AddsOperand source p) : Adds source p :=
  fun h => (hp h).mono fun _ _ _ hn => hn.1

/-- The production gives a part of a pattern, with nothing behind it, while a node shows that something
newer is read. -/
def AddsInner (source : List Char) (p : Parse Bound) : Prop :=
  ∀ {r : Reading} {ns : List Node}, Accounted source r ns → (∃ n ∈ ns, n.Shows) →
    Gives source p r fun bound later =>
      Accounted source later (bound.1 :: ns) ∧ bound.1.stop? = some later.edge

/-- What the productions for the inside of a construct do. -/
structure Productions.Sound (source : List Char) (g : Productions) : Prop where
  assignment : AddsWhole source g.assignment
  unary : Adds source g.unary
  power : Adds source g.power
  callee : Adds source g.callee
  operand : Adds source g.operand
  binding : ∀ kind, AddsBound source kind (g.binding kind)
  statement : Adds source g.statement
  item : Adds source g.item

/-- Nodes behind commas are accounted for, and what holds of each node where it was read holds of
the last one. -/
theorem gives_commas {p : Parse Node} {E : Node → Reading → Prop} {first : Node}
    (hp : ∀ {r ns}, Accounted source r ns → r.lexemes.getLast? = some (.punctuator ",") →
      Gives source p r fun n later => Accounted source later (n :: ns) ∧ E n later)
    (h : Accounted source r (first :: ns)) (hfirst : E first r) :
    Gives source (many do if ← accept "," then return some (← p) else return none) r
      fun rest later => Accounted source later (rest ++ first :: ns) ∧
        ∀ last, (first :: rest).getLast? = some last → E last later := by
  -- The invariant is the conclusion, for the nodes so far.
  refine (Gives.many
    (I := fun reversed later => Accounted source later (reversed ++ first :: ns) ∧
      ∀ last, (first :: reversed.reverse).getLast? = some last → E last later)
    (J := fun reversed later => Accounted source later (reversed ++ first :: ns) ∧
      ∀ last, (first :: reversed.reverse).getLast? = some last → E last later)
    ?_ ⟨h, by simpa using hfirst⟩).mono ?_
  · rintro reversed r ⟨h, hlast⟩
    refine h.accept_bind (by decide) (fun next hcomma h => ?_) fun _ => .pure ⟨h, hlast⟩
    refine (hp h (by simp [hcomma])).bind fun n later _ ⟨h, hn⟩ => .pure ⟨h, fun last hlast => ?_⟩
    obtain rfl : n = last := by simpa [List.getLast?_cons] using hlast
    exact hn
  · rintro rest later - ⟨h, hlast⟩
    exact ⟨h.regroup (by simp [SameTrees]), by simpa using hlast⟩

/-- A node from the token ahead on, whose parts are accounted for, spans what was read. -/
theorem Accounted.gives_whole {start : Mark} {form : Form} {parts ms ns : List Node}
    (h : Accounted source later ms) (hr : r.Sound source) (hpast : Past r later)
    (hstart : start.offset = r.ahead.start) (hsame : SameTrees ms (parts ++ ns))
    (hplain : form.isPlain = true) (hform : Spans form parts) :
    Gives source (Grammar.node start form parts) later fun n last =>
      Accounted source last (n :: ns) ∧ Past r last ∧ Whole r last n := by
  refine gives_node fun span hspan hstop => ⟨h.plain hsame hplain, hpast, ?_⟩
  exact hpast.whole hr h.sound (hspan.trans hstart) hstop hform

/-- The same for a node that starts with a token that was ahead. -/
theorem Accounted.gives_wholeFrom {form : Form} {parts ms ns : List Node}
    (h : Accounted source later ms) (hr : r.Sound source) (hpast : Past r later)
    (hsame : SameTrees ms (parts ++ ns)) (hplain : form.isPlain = true)
    (hform : Spans form parts) :
    Gives source (nodeFrom r.ahead form parts) later fun n last =>
      Accounted source last (n :: ns) ∧ Past r last ∧ Whole r last n := by
  refine gives_nodeFrom fun span hspan hstop => ⟨h.plain hsame hplain, hpast, ?_⟩
  exact hpast.whole hr h.sound hspan hstop hform

/-- A node whose parts are accounted for. -/
theorem Accounted.gives_plain {start : Mark} {form : Form} {parts ms ns : List Node}
    (h : Accounted source r ms) (hsame : SameTrees ms (parts ++ ns)) (hplain : form.isPlain = true) :
    Gives source (Grammar.node start form parts) r fun n later => Accounted source later (n :: ns) :=
  gives_node fun _ _ _ => h.plain hsame hplain

/-- A node whose parts are accounted for ends at the edge. -/
theorem Accounted.gives_ended {start : Mark} {form : Form} {parts ms ns : List Node}
    (h : Accounted source r ms) (hread : r.read ≠ []) (hsame : SameTrees ms (parts ++ ns))
    (hplain : form.isPlain = true) :
    Gives source (Grammar.node start form parts) r fun n later =>
      Accounted source later (n :: ns) ∧ n.stop? = some later.edge :=
  gives_node fun _ _ hstop =>
    ⟨h.plain hsame hplain, by simp [Node.stop?, Node.span, hstop hread]⟩

/-- A node of a newer form that ends at the edge takes the place of its pledge. -/
theorem Accounted.gives_redeemed {start : Mark} {form : Form} {parts ms : List Node}
    (h : Accounted source r ms) (hread : r.read ≠ [])
    (hsame : SameTrees ms (parts ++ Grammar.pledge :: ns)) (hplain : form.isPlain = true)
    (hnewer : form.newer = true) :
    Gives source (Grammar.node start form parts) r fun n later =>
      Accounted source later (n :: ns) ∧ n.stop? = some later.edge :=
  gives_node fun _ _ hstop =>
    ⟨(h.plain hsame hplain).redeem (Node.shows_mk.mpr (.inl hnewer)),
      by simp [Node.stop?, Node.span, hstop hread]⟩

theorem adds_expression {g : Productions} (hg : g.Sound source) : AddsWhole source (expression g) := by
  intro r ns h
  have hr := h.sound
  unfold expression
  refine .ahead_bind ?_
  refine (hg.assignment h).isolate.bind fun first mid hmid ⟨h, hpast, hfirst⟩ => ?_
  refine .sees_bind (fun _ => ?_) (fun _ => .pure ⟨h, hpast, hfirst⟩)
  refine (gives_commas (E := fun n later => ∃ stop, n.stop? = some stop ∧ EndsAt later stop)
    (fun h _ => (hg.assignment h).isolate.mono fun n later _ ⟨h, _, hn⟩ => ⟨h, hn.stop⟩)
    h hfirst.stop).bind fun rest later hlater ⟨h, hlast⟩ => ?_
  refine gives_nodeFrom fun span hstart hstop => ?_
  have hpast := hpast.trans hlater
  refine ⟨h.plain (by simp [SameTrees, or_assoc, or_comm]) rfl, hpast, ?_⟩
  refine ⟨⟨span, rfl, ?_, ?_⟩, fun _ => hlast, by simp [Node.form], by simp [Node.form]⟩
  · rw [hstart]
    exact hpast.beginsAt hr
  · rw [hstop hpast.read_ne_nil]
    exact endsAt_edge h.sound

end EditionSurvey.Script.Grammar
