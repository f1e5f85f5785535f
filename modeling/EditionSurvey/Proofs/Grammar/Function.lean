/-
  Proofs/Grammar/Function.lean --- what the productions for function bodies, functions and methods
  add.
-/
import EditionSurvey.Proofs.Grammar.Binding

set_option autoImplicit false

namespace EditionSurvey.Script.Grammar

variable {source : List Char} {r later : Reading} {ns : List Node} {g : Productions}

/-! ## Bodies -/

theorem gives_directiveStatement (hg : g.Sound source) (spelling : String)
    (h : Accounted source r ns) :
    Gives source (directiveStatement g spelling) r fun statement later =>
      Accounted source later (statement.1 :: ns) := by
  unfold directiveStatement
  refine .here_bind fun start _ => ?_
  refine (adds_expression hg h).bind fun expr mid _ ⟨h, _, _⟩ => ?_
  refine h.endStatement_bind fun later h => ?_
  dsimp only
  split
  · split
    · exact .node_bind fun _ => .pure (h.plain (by simp [SameTrees]) rfl)
    · exact .node_bind fun _ => .pure (h.plain (by simp [SameTrees]) rfl)
  · exact .node_bind fun _ => .pure (h.plain (by simp [SameTrees]) rfl)

theorem gives_directives (hg : g.Sound source) (fuel : Nat) :
    ∀ {octal : Option Token} {reversed : List Node} {r : Reading},
      Accounted source r (reversed ++ ns) →
        Gives source (directives g fuel octal reversed) r fun prologue later =>
          Accounted source later (prologue ++ ns) := by
  induction fuel with
  | zero => exact fun _ => .of_fails (fails_interrupt _)
  | succ fuel ih =>
      intro octal reversed r h
      have hdone : ∀ (reversed : List Node) {r : Reading}, Accounted source r (reversed ++ ns) →
          Accounted source r (reversed.reverse ++ ns) :=
        fun _ _ h => h.regroup (by simp [SameTrees])
      unfold directives
      refine .ahead_bind ?_
      split
      · refine (gives_directiveStatement hg _ h).bind fun statement later _ h => ?_
        dsimp only
        split
        · exact .pure (hdone (_ :: _) h)
        · refine .after_still (still_modifyContext _) fun _ => ?_
          split
          · exact .of_fails ((fails_failAt _ _).bind _)
          · exact .after_still still_context fun _ => .unless (fails_failAt _ _) fun _ => ih h
        · exact ih h
      · exact .pure (hdone _ h)

theorem gives_directivePrologue (hg : g.Sound source) (h : Accounted source r ns) :
    Gives source (directivePrologue g) r fun prologue later =>
      Accounted source later (prologue ++ ns) :=
  .after_still still_budget fun _ => gives_directives hg _ h

/-- Items are read until none is left. -/
theorem gives_items {step : Parse (Option Node)}
    (hstep : ∀ {r ns}, Accounted source r ns → Gives source step r fun value later =>
      Accounted source later (value.toList ++ ns))
    (h : Accounted source r ns) :
    Gives source (many step) r fun items later => Accounted source later (items ++ ns) := by
  let I : List Node → Reading → Prop := fun reversed later =>
    Accounted source later (reversed ++ ns)
  refine (Gives.many (I := I) (J := I) (fun reversed r h => ?_) h).mono fun items later _ h => ?_
  · refine (hstep h).mono fun value later _ h => ?_
    cases value with
    | none => exact h
    | some value => exact h
  · exact h.regroup (by simp [SameTrees])

/-- The body of a function begins at its opening brace.  At the closing one no head waits. -/
theorem gives_functionBody (hg : g.Sound source) (h : Accounted source r ns) :
    Gives source (functionBody g) r fun body later =>
      Accounted source later (body :: ns) ∧ Past r later ∧ body.start? = some r.ahead.start ∧
        ∀ n ∈ body :: ns, n.Headless := by
  have hr := h.sound
  unfold functionBody
  refine .here_bind fun start hstart => ?_
  refine h.expect_bind (by decide) fun next _ h => ?_
  refine (gives_directivePrologue hg h).bind fun prologue mid hmid h => ?_
  refine .after_still still_context fun outer => .after_still (still_modifyContext _) fun _ => ?_
  refine (gives_items ?_ h).bind fun items mid' hmid' h => ?_
  · intro r ns h
    refine .after_still still_seesEnd fun _ => .after_still (still_sees _) fun _ => ?_
    split
    · exact .pure h
    · exact (hg.item h).bind fun n later _ h => .pure h
  have hpast : Past r mid' := .of_after hr (hmid.trans hmid')
  refine h.expect_bind (by decide) fun next' hclose h' => ?_
  have hheadless := h.headless (by simp [hclose])
  have hsame : SameTrees (items ++ (prologue ++ ns)) (prologue ++ items ++ ns) := by
    simp [SameTrees, or_left_comm]
  refine .after_still (still_modifyContext _) fun _ => gives_node fun span hspan _ => ?_
  refine ⟨h'.plain hsame rfl, hpast.trans (h.sound.extends_after next'), ?_, ?_⟩
  · simp [Node.start?, Node.span, hspan, hstart]
  · refine List.forall_mem_cons.mpr ⟨headless_of_sameTrees hsame hheadless (by simp), ?_⟩
    exact fun n hn => hheadless n (by simp [hn])

theorem still_checkStrictParameters (ps : Parameters) (fault : Option Fault) :
    Still (checkStrictParameters ps fault) := by
  have hculprit : ∀ culprit fault, Fails (failParameter culprit fault : Parse Unit) := by
    intro culprit fault
    unfold failParameter
    split
    · exact fails_failAt _ _
    · exact fails_failBehind _
  unfold checkStrictParameters
  refine still_strict.bind fun strict => ?_
  split
  · dsimp only
    split <;> split <;>
      first
        | exact ((hculprit _ _).bind _).still
        | exact (hculprit _ _).still
        | exact still_pure _
  · exact still_pure _

theorem Gives.bodyOf {p : Parse Node} {Q : Node → Reading → Prop} (ps : Parameters)
    (fault : Option Fault) (hp : Gives source p r Q) : Gives source (bodyOf ps fault p) r Q := by
  refine .withStrictness (.after_still (still_modifyContext _) fun _ => ?_)
  exact hp.bind fun body later _ hbody =>
    .after_still (still_checkStrictParameters ps fault) fun _ => .pure hbody

/-! ## Functions -/

/-- What the node of a function is. -/
structure IsFunction (r later : Reading) (start : Mark) (n : Node) : Prop where
  past : Past r later
  span : ∃ span, n.span = some span ∧ span.start = start.offset ∧ span.stop = later.edge
  form : ∃ declared isAsync isGenerator, n.form = .function declared isAsync isGenerator
  headless : n.Headless

theorem IsFunction.whole {start : Mark} {n : Node} {r₀ : Reading} (h : IsFunction r later start n)
    (hr : r₀.Sound source) (hlater : later.Sound source) (hstart : start.offset = r₀.ahead.start)
    (hpast : Past r₀ later) : Whole r₀ later n := by
  obtain ⟨form, role, span, parts⟩ := n
  obtain ⟨-, ⟨span, rfl, hspan, hstop⟩, ⟨declared, isAsync, isGenerator, rfl⟩, -⟩ := h
  exact hpast.whole hr hlater (hspan.trans hstart) (fun _ => hstop) (by simp)

/-- The node of a function whose parameters are closed where its body begins. -/
theorem gives_functionNode {start : Mark} {declared isAsync isGenerator : Bool}
    (names : List Node) {params : List Node} {body : Node} (hnames : ∀ n ∈ names, n.role = .part)
    (hitems : Items r .param params [")"]) (hr : r.Sound source) (hpast : Past r later)
    (hbody : body.start? = some r.ahead.start)
    (h : Accounted source later (body :: (params.reverse ++ (names ++ ns))))
    (hheadless : ∀ n ∈ body :: (params.reverse ++ (names ++ ns)), n.Headless) :
    Gives source (node start (.function declared isAsync isGenerator)
        (names ++ params ++ [body.withRole .body])) later fun n last =>
      Accounted source last (n :: ns) ∧ IsFunction r last start n := by
  refine gives_node fun span hspan hstop => ?_
  have hstop := hstop hpast.read_ne_nil
  have hsame : SameTrees (body :: (params.reverse ++ (names ++ ns)))
      (names ++ params ++ [body.withRole .body] ++ ns) := by
    simp [SameTrees, or_assoc, or_comm, or_left_comm]
  refine ⟨h.node hsame (by simp) ?_, hpast, ⟨span, rfl, hspan, hstop⟩, ⟨_, _, _, rfl⟩, ?_⟩
  · obtain ⟨hparam, hbody_part⟩ := parts_of_function body hnames hitems.roles
    have hlisting : (Node.mk (.function declared isAsync isGenerator) .part (some span)
        (names ++ params ++ [body.withRole .body])).listing? =
          some ⟨params, some r.ahead.start, .parameterComma⟩ := by
      simp only [Node.listing?, Node.form, Node.partsAs, Node.parts, hparam, hbody_part]
      simp [hbody]
    exact hitems.listedUpTo [] rfl hr (hpast.extends hr) hr.edge hpast.ahead_le
      (by rw [hpast.between_ahead hr]; rfl) hlisting
  · exact headless_of_sameTrees hsame hheadless (by simp)

theorem gives_functionName {name : Parse Node} (hname : AddsName source name)
    (h : Accounted source r ns) :
    Gives source (functionName name) r fun found later =>
      Accounted source later (found.1 :: ns) ∧ Past r later ∧ found.1.role = .part := by
  unfold functionName
  refine .ahead_bind ?_
  refine (hname h).bind fun id later _ ⟨h, hpast, _, _, hrole, _⟩ => ?_
  refine .after_still still_strict fun strict => ?_
  split
  · exact .unless (fails_failAt _ _) fun _ => .pure ⟨h, hpast, hrole⟩
  split
  · exact .pure ⟨h, hpast, hrole⟩
  split
  · exact .pure ⟨h, hpast, hrole⟩
  · exact .pure ⟨h, hpast, hrole⟩

theorem gives_functionHead (h : Accounted source r ns) :
    Gives source functionHead r fun _ later => Accounted source later ns ∧ Past r later := by
  unfold functionHead
  have hkeyword : ∀ {isAsync : Bool} {r : Reading}, Accounted source r ns →
      Gives source (do
        expectKeyword "function"
        let isGenerator ← if isAsync then pure false else accept "*"
        return (isAsync, isGenerator)) r fun _ later => Accounted source later ns ∧ Past r later := by
    intro isAsync r h
    have hr := h.sound
    refine h.expectKeyword_bind fun next _ h => ?_
    have hpast : Past r (r.after next) := .of_after hr (.refl _)
    split
    · exact .pure ⟨h, hpast⟩
    · exact h.accept_bind (by decide)
        (fun next' _ h' => .pure ⟨h', hpast.trans (h.sound.extends_after next')⟩)
        fun _ => .pure ⟨h, hpast⟩
  refine .seesName_bind (fun hahead => ?_) fun _ => hkeyword h
  refine h.quiet_bind (by rw [hahead]; exact ⟨rfl, by simp⟩) fun next h' => ?_
  exact (hkeyword h').mono fun _ later hlater ⟨h', _⟩ => ⟨h', .of_after h.sound hlater⟩

theorem gives_functionTail (hg : g.Sound source) {start : Mark}
    {declared isAsync isGenerator : Bool} {name : Option Node} {culprit : Option Culprit}
    {fault : Option Fault} (hname : ∀ n ∈ name, n.role = .part)
    (h : Accounted source r (name.toList ++ ns)) :
    Gives source (functionTail g start declared isAsync isGenerator name culprit fault) r
      fun n later => Accounted source later (n :: ns) ∧ ∃ mid, IsFunction mid later start n := by
  unfold functionTail
  refine (gives_parameters hg culprit h).bind fun ps mid _ ⟨h, hitems⟩ => ?_
  refine ((gives_functionBody hg h).bodyOf ps _).bind fun body later _ ⟨h', hpast, hbody, hheadless⟩ => ?_
  rw [← ps.reversed.reverse_reverse] at h' hheadless
  exact (gives_functionNode _ (fun n hn => hname n (by simpa using hn)) hitems h.sound hpast hbody
    h' hheadless).mono fun n last _ ⟨h, hn⟩ => ⟨h, mid, hn⟩

theorem adds_functionDeclaration (hg : g.Sound source) :
    Adds source (functionDeclaration g) := by
  intro r ns h
  unfold functionDeclaration
  refine .here_bind fun start _ => ?_
  refine (gives_functionHead h).bind fun head mid _ ⟨h, _⟩ => ?_
  refine (gives_functionName adds_bindingName h).bind fun name mid' _ ⟨h, _, hrole⟩ => ?_
  exact .withSuspension ((gives_functionTail hg (by simpa using hrole) h).mono
    fun _ _ _ hn => hn.1)

theorem adds_functionExpression (hg : g.Sound source) :
    AddsSealed source (functionExpression g) := by
  intro r ns h
  have hr := h.sound
  unfold functionExpression
  refine .here_bind fun start hstart => ?_
  refine (gives_functionHead h).bind fun head mid _ ⟨h, hpast⟩ => ?_
  have hwhole : ∀ {n : Node} {later : Reading}, mid.Extends later →
      (Accounted source later (n :: ns) ∧ ∃ mid, IsFunction mid later start n) →
        Accounted source later (n :: ns) ∧ Past r later ∧ Whole r later n ∧ n.Headless := by
    rintro n later hlater ⟨h, _, hn⟩
    exact ⟨h, hpast.trans hlater, hn.whole hr h.sound hstart (hpast.trans hlater), hn.headless⟩
  refine .withSuspension ?_
  refine .after_still (still_sees _) fun _ => ?_
  split
  · exact (gives_functionTail hg (by simp) h).mono fun n later hlater hn => hwhole hlater hn
  · have hname : AddsName source (do
        if !(← strict) && !head.2 && (← seesKeyword "yield") then propertyWord
        else bindingName none) := by
      intro r ns h
      refine .after_still still_strict fun _ => .after_still (still_seesKeyword _) fun _ => ?_
      split
      · exact adds_propertyWord h
      · exact adds_bindingName h
    refine (gives_functionName hname h).bind fun name mid' hmid' ⟨h, _, hrole⟩ => ?_
    exact (gives_functionTail hg (by simpa using hrole) h).mono
      fun n later hlater hn => hwhole (hmid'.trans hlater) hn

theorem still_seesAsyncFunction : Still seesAsyncFunction := by
  refine (still_seesName _).bind fun _ => ?_
  split
  · exact still_pure _
  · exact still_get.bind fun _ => still_peekBeyond.bind fun _ => still_pure _

/-! ## Methods -/

/-- The body of a method behind its parameters, and its node. -/
theorem gives_methodEnd (hg : g.Sound source) {start : Mark} {isAsync isGenerator : Bool}
    {ps : Parameters} (hitems : Items r .param ps.list [")"])
    (h : Accounted source r (ps.reversed ++ ns)) :
    Gives source (methodBody g ps >>= methodNode start isAsync isGenerator ps) r fun n later =>
      Accounted source later (n :: ns) := by
  have hbody : Gives source (methodBody g ps) r fun body later =>
      Accounted source later (body :: (ps.reversed ++ ns)) ∧ Past r later ∧
        body.start? = some r.ahead.start ∧ ∀ n ∈ body :: (ps.reversed ++ ns), n.Headless :=
    .after_still (still_modifyContext _) fun _ => (gives_functionBody hg h).isolate.bodyOf ps _
  refine hbody.bind fun body later _ ⟨h', hpast, hbody, hheadless⟩ => ?_
  rw [← ps.reversed.reverse_reverse] at h' hheadless
  exact (gives_functionNode [] (by simp) hitems h.sound hpast hbody h' hheadless).mono
    fun n last _ ⟨h, _⟩ => h

theorem adds_plainMethod (hg : g.Sound source) : Adds source (plainMethod g) := by
  intro r ns h
  refine .here_bind fun start _ => .keepingYield (.after_still (still_modifyContext _) fun _ => ?_)
  refine (gives_parameters hg none h).bind fun ps mid _ ⟨h, hitems⟩ => ?_
  exact gives_methodEnd hg hitems h

theorem adds_asyncMethod (hg : g.Sound source) : Adds source (asyncMethod g) := by
  intro r ns h
  refine .here_bind fun start _ => .withSuspension ?_
  refine (gives_parameters hg none h).bind fun ps mid _ ⟨h, hitems⟩ => ?_
  exact gives_methodEnd hg hitems h

theorem adds_generatorMethod (hg : g.Sound source) : Adds source (generatorMethod g) := by
  intro r ns h
  refine .here_bind fun start _ => .keepingYield (.after_still (still_modifyContext _) fun _ => ?_)
  refine (gives_parameters hg none h).bind fun ps mid _ ⟨h, hitems⟩ => ?_
  refine .after_still (still_modifyContext _) fun _ => ?_
  exact gives_methodEnd hg hitems h

theorem adds_getter (hg : g.Sound source) : Adds source (getter g) := by
  intro r ns h
  refine .here_bind fun start _ => .keepingYield (.after_still (still_modifyContext _) fun _ => ?_)
  refine (gives_parameters hg none h).bind fun ps mid _ ⟨h, hitems⟩ => ?_
  exact .unless (fails_failAhead _) fun _ => gives_methodEnd hg hitems h

theorem adds_setter (hg : g.Sound source) : Adds source (setter g) := by
  intro r ns h
  refine .here_bind fun start _ => .keepingYield (.after_still (still_modifyContext _) fun _ => ?_)
  refine (gives_parameters hg none h).bind fun ps mid _ ⟨h, hitems⟩ => ?_
  dsimp only
  split
  · exact .unless (fails_failAhead _) fun _ => gives_methodEnd hg hitems h
  · exact .of_fails ((fails_failAhead _).bind _)

end EditionSurvey.Script.Grammar
