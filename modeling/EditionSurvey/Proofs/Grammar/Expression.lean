/-
  Proofs/Grammar/Expression.lean --- what the productions for operators, arrow functions and assignments
  add.
-/
import EditionSurvey.Script.Grammar.Expression
import EditionSurvey.Proofs.Grammar.Primary

set_option autoImplicit false

namespace EditionSurvey.Script.Grammar

variable {source : List Char} {r later : Reading} {ns : List Node} {g : Productions}

/-! ## Tests of the token ahead -/

/-- The test reads nothing, and only quiet tokens pass it. -/
def Tests (source : List Char) (p : Parse Bool) : Prop :=
  ∀ {r : Reading}, Gives source p r fun seen later =>
    later = r ∧ (seen = true → r.ahead.lexeme.Quiet)

theorem Gives.tests_bind {β : Type} {p : Parse Bool} {f : Bool → Parse β} {Q : β → Reading → Prop}
    (hp : Tests source p)
    (k : ∀ seen, (seen = true → r.ahead.lexeme.Quiet) → Gives source (f seen) r Q) :
    Gives source (p >>= f) r Q := by
  refine Gives.bind hp fun seen later _ ⟨hlater, hquiet⟩ => ?_
  subst hlater
  exact k seen hquiet

theorem tests_seesAny {marks : List String} (hmarks : "=>" ∉ marks) : Tests source (seesAny marks) := by
  intro r
  unfold seesAny
  refine .ahead_bind ?_
  split
  · rename_i mark hahead
    refine .pure ⟨rfl, fun hseen => ?_⟩
    rw [hahead]
    exact ⟨rfl, by rintro ⟨rfl⟩; exact hmarks (by simpa using hseen)⟩
  · exact .pure ⟨rfl, by simp⟩

theorem tests_seesName (word : String) : Tests source (seesName word) := by
  intro r
  unfold seesName
  refine .ahead_bind (.pure ⟨rfl, fun hseen => ?_⟩)
  unfold Token.isNamed at hseen
  split at hseen
  · rename_i name hahead
    rw [hahead]
    exact ⟨rfl, by simp⟩
  · cases hseen

theorem tests_seesPrefixOperator : Tests source seesPrefixOperator := by
  intro r
  unfold seesPrefixOperator
  refine .ahead_bind ?_
  split
  · rename_i mark hahead
    refine .pure ⟨rfl, fun hseen => ?_⟩
    rw [hahead]
    exact ⟨rfl, by rintro ⟨rfl⟩; revert hseen; decide⟩
  · rename_i word hahead
    refine .pure ⟨rfl, fun _ => ?_⟩
    rw [hahead]
    exact ⟨rfl, by simp⟩
  · exact .pure ⟨rfl, by simp⟩

theorem tests_seesAssignment : Tests source seesAssignment := by
  intro r
  unfold seesAssignment
  refine .ahead_bind ?_
  split
  · rename_i mark hahead
    refine .pure ⟨rfl, fun hseen => ?_⟩
    rw [hahead]
    exact ⟨rfl, by rintro ⟨rfl⟩; revert hseen; decide⟩
  · exact .pure ⟨rfl, by simp⟩

/-- What has a precedence is an operator. -/
theorem quiet_of_precedence {lexeme : Lexeme} {allowIn : Bool}
    (h : precedence lexeme allowIn ≠ 0) : lexeme.Quiet := by
  unfold precedence at h
  split at h
  · exact ⟨rfl, by simp⟩
  · exact ⟨rfl, by simp⟩
  · exact ⟨rfl, by rintro ⟨rfl⟩; exact h (by decide)⟩
  · exact absurd rfl h

/-! ## Unary operators -/

theorem still_checkStepTarget (expr : Node) (fault : Fault) : Still (checkStepTarget expr fault) := by
  unfold checkStepTarget
  refine still_strict.bind fun strict => ?_
  split
  · exact ((fails_failAhead _).bind _).still
  · refine still_context.bind fun c => ?_
    split
    · exact (fails_failAhead _).still
    · exact still_pure _

theorem adds_stepped (hg : g.Sound source) : AddsOperand source (stepped g) := by
  intro r ns h
  have hr := h.sound
  unfold stepped
  refine .ahead_bind (.tests_bind (tests_seesAny (by decide)) fun steps hsteps => ?_)
  split
  · rename_i hseen
    have hquiet := hsteps hseen
    refine h.quiet_bind hquiet fun next h => ?_
    refine (hg.unary h).inherit.bind fun expr later hlater h => ?_
    refine .after_still (still_checkStepTarget _ _) fun _ => ?_
    refine .bind (.reads (h.gives_wholeFrom hr (.of_after hr hlater) (fun _ => Iff.rfl) rfl (by simp))
      hquiet.2) fun n last _ hn => .after_still (still_modifyContext _) fun _ => .pure hn
  · refine (adds_operand hg h).inherit.bind fun expr later _ ⟨h, hexpr⟩ => ?_
    refine .after_still still_lineBreak fun broken => ?_
    refine .tests_bind (tests_seesAny (by decide)) fun steps hsteps => ?_
    split
    · rename_i hseen
      refine .after_still (still_checkStepTarget _ _) fun _ => ?_
      refine .after_still (still_modifyContext _) fun _ => ?_
      have hsound := h.sound
      refine h.quiet_bind (hsteps (Bool.and_eq_true_iff.mp hseen).2) fun next h => ?_
      exact hexpr.gives_nodeFrom hr (hsound.extends_after next) h (fun _ => Iff.rfl) rfl (by simp)
    · exact .pure ⟨h, hexpr⟩

theorem adds_unary (hg : g.Sound source) : AddsOperand source (unary g) := by
  intro r ns h
  have hr := h.sound
  unfold unary
  refine .tests_bind tests_seesPrefixOperator fun operators hoperators => ?_
  split
  · rename_i hseen
    have hquiet := hoperators hseen
    refine .ahead_bind (h.quiet_bind hquiet fun next h => ?_)
    refine (hg.unary h).inherit.bind fun expr later hlater h => ?_
    refine .bind (.reads (h.gives_wholeFrom hr (.of_after hr hlater) (fun _ => Iff.rfl) rfl (by simp))
      hquiet.2) fun n last _ hn => ?_
    refine .after_still still_strict fun strict => .unless (fails_failAhead _) fun _ => ?_
    exact .after_still (still_modifyContext _) fun _ => .pure hn
  · refine .after_still still_context fun c => .tests_bind (tests_seesName _) fun awaits hawaits => ?_
    split
    · rename_i hseen
      have hquiet := hawaits (Bool.and_eq_true_iff.mp hseen).2
      refine .here_bind fun start hstart => h.quiet_bind hquiet fun next h => ?_
      refine (hg.unary h).bind fun expr later hlater h => ?_
      exact .reads (h.gives_whole hr (.of_after hr hlater) hstart (fun _ => Iff.rfl) rfl (by simp))
        hquiet.2
    · exact adds_stepped hg h

/-! ## Binary operators -/

theorem adds_power (hg : g.Sound source) : AddsOperand source (power g) := by
  intro r ns h
  have hr := h.sound
  unfold power
  refine .ahead_bind ((adds_unary hg h).inherit.bind fun base later _ ⟨h, hbase⟩ => ?_)
  split
  · exact .pure ⟨h, hbase⟩
  · have hsound := h.sound
    refine h.accept_bind (by decide) (fun next _ h => ?_) fun _ => .pure ⟨h, hbase⟩
    refine .after_still (still_modifyContext _) fun _ => ?_
    refine (hg.power h).isolate.bind fun exponent last hlast h => ?_
    exact hbase.gives_nodeFrom hr ((hsound.extends_after next).trans hlast) h
      (by simp [SameTrees, or_left_comm]) rfl (by simp)

/-- Operands joined by operators that still wait: the lowest one starts where the first operand did. -/
structure Joined (source : List Char) (ns : List Node) (r₀ r : Reading) (pending : List Pending)
    (right : Operand) : Prop where
  account : Accounted source r (right.node :: (pending.map Pending.left ++ ns))
  past : Past r₀ r
  ahead : r₀.ahead.lexeme ≠ .punctuator "=>"
  start : (pending.map Pending.leftToken).getLastD right.token = r₀.ahead
  alone : pending = [] → Reads r₀ r right.node

variable {r₀ : Reading}

theorem isPlain_binaryForm (operator : String) :
    (binaryForm operator).isPlain = true ∧ ∀ parts, Spans (binaryForm operator) parts := by
  unfold binaryForm
  split <;> exact ⟨rfl, by simp⟩

/-- The topmost operator gets its operand. -/
theorem Joined.reduce {top : Pending} {rest : List Pending} {right : Operand} {span : Span}
    (h : Joined source ns r₀ r (top :: rest) right) (hr : r₀.Sound source)
    (hstart : span.start = top.leftToken.start) (hstop : r.read ≠ [] → span.stop = r.edge) :
    Joined source ns r₀ r rest
      ⟨.mk (binaryForm top.operator) .part (some span) [top.left, right.node], top.leftToken⟩ where
  account := h.account.plain (by simp [SameTrees, or_left_comm]) (isPlain_binaryForm _).1
  past := h.past
  ahead := h.ahead
  start := by
    have := h.start
    rwa [List.map_cons, List.getLastD_cons] at this
  alone := by
    rintro rfl
    have hfirst : top.leftToken = r₀.ahead := h.start
    exact ⟨h.past, h.ahead, .inl (h.past.whole hr h.account.sound (hfirst ▸ hstart) hstop
      ((isPlain_binaryForm _).2 _))⟩

theorem gives_reduceTo (hr : r₀.Sound source) (limit : Nat) :
    ∀ {pending : List Pending} {right : Operand}, Joined source ns r₀ r pending right →
      Gives source (reduceTo limit pending right) r fun joined later =>
        later = r ∧ Joined source ns r₀ r joined.1 joined.2
  | [], right, h => .pure ⟨rfl, h⟩
  | top :: rest, right, h => by
      unfold reduceTo
      split
      · refine Gives.bind (gives_nodeFrom (Q := fun n later => later = r ∧
          Joined source ns r₀ r rest ⟨n, top.leftToken⟩) fun span hstart hstop =>
            ⟨rfl, h.reduce hr hstart hstop⟩) fun n later _ ⟨hlater, hn⟩ => ?_
        rw [hlater]
        exact gives_reduceTo hr limit hn
      · exact .pure ⟨rfl, h⟩

theorem gives_reduceAll (hr : r₀.Sound source) :
    ∀ {pending : List Pending} {right : Operand}, Joined source ns r₀ r pending right →
      Gives source (reduceAll pending right) r fun n later =>
        Accounted source later (n :: ns) ∧ Reads r₀ later n
  | [], right, h => .pure ⟨h.account, h.alone rfl⟩
  | top :: rest, right, h => by
      unfold reduceAll
      have hmark : (Mark.ofToken top.leftToken right.token.lineStart).offset = top.leftToken.start := by
        unfold Mark.ofToken
        dsimp only
        split <;> rfl
      refine Gives.bind (gives_node (Q := fun n later => later = r ∧
        Joined source ns r₀ r rest ⟨n, top.leftToken⟩) fun span hstart hstop =>
          ⟨rfl, h.reduce hr (hstart.trans hmark) hstop⟩) fun n later _ ⟨hlater, hn⟩ => ?_
      rw [hlater]
      exact gives_reduceAll hr hn

theorem gives_binaryTail (hg : g.Sound source) (hr : r₀.Sound source) (fuel : Nat) :
    ∀ {pending : List Pending} {right : Operand} {r : Reading},
      Joined source ns r₀ r pending right →
        Gives source (binaryTail g fuel pending right) r fun n later =>
          Accounted source later (n :: ns) ∧ Reads r₀ later n := by
  induction fuel with
  | zero => exact fun _ => .of_fails (fails_interrupt _)
  | succ fuel ih =>
      intro pending right r h
      unfold binaryTail
      refine .ahead_bind (.after_still still_context fun c => ?_)
      dsimp only
      split
      · exact gives_reduceAll hr h
      · rename_i hlevel
        have hquiet := quiet_of_precedence hlevel
        refine (gives_reduceTo hr _ h).bind fun joined later _ ⟨hlater, h⟩ => ?_
        subst hlater
        obtain ⟨pending, left⟩ := joined
        refine h.account.quiet_bind hquiet fun next hnext => ?_
        refine .after_still (still_modifyContext _) fun _ => .ahead_bind ?_
        refine (adds_power hg hnext).isolate.bind fun operand last hlast ⟨hlast_account, _⟩ => ?_
        have hpast := (h.past.trans (h.account.sound.extends_after next)).trans hlast
        exact ih { account := hlast_account, past := hpast, ahead := h.ahead,
                   start := by rw [List.map_cons, List.getLastD_cons]; exact h.start, alone := by simp }

theorem adds_binary (hg : g.Sound source) : AddsOperand source (binary g) := by
  intro r ns h
  have hr := h.sound
  refine .ahead_bind ((adds_power hg h).inherit.bind fun first later _ ⟨h, hfirst⟩ => ?_)
  refine .after_still still_budget fun _ => gives_binaryTail hg hr _ ?_
  exact { account := h, past := hfirst.past, ahead := hfirst.ahead, start := rfl,
          alone := fun _ => hfirst }

theorem adds_conditional (hg : g.Sound source) : AddsOperand source (conditional g) := by
  intro r ns h
  have hr := h.sound
  unfold conditional
  refine .ahead_bind ((adds_binary hg h).inherit.bind fun test mid _ ⟨h, htest⟩ => ?_)
  have hmid := h.sound
  refine h.accept_bind (by decide) (fun next _ h => ?_) fun _ => .pure ⟨h, htest⟩
  refine (hg.assignment h).isolate.withIn.bind fun yes mid' hmid' ⟨h, _, _⟩ => ?_
  have hextends := (hmid.extends_after next).trans hmid'
  have hmid' := h.sound
  refine h.expect_bind (by decide) fun next' _ h => ?_
  refine (hg.assignment h).isolate.bind fun no later hlater ⟨h, _, _⟩ => ?_
  have hextends := (hextends.trans (hmid'.extends_after next')).trans hlater
  refine (htest.gives_nodeFrom hr hextends h (by simp [SameTrees, or_left_comm]) rfl
    (by simp)).bind fun n last _ hn => .after_still (still_modifyContext _) fun _ => .pure hn

/-! ## Arrow functions -/

/-- A bare `yield` is taken for a name, at the place where it stood. -/
theorem gives_yieldDefault (n : Node) :
    Gives source (yieldDefault n) r fun m later => later = r ∧ m.stop? = n.stop? ∧
      ∀ P : Node → Prop, (∀ form role span parts, form.isPlain = true → P (.mk form role span parts)) →
        n.All P → m.All P := by
  unfold yieldDefault
  split
  · rename_i role span left hasArgument rightRole rightSpan _
    split
    · exact .unexpectedAhead
    · refine .pure ⟨rfl, rfl, fun P hplain hn => Node.all_mk.mpr ⟨hplain _ _ _ _ rfl, ?_⟩⟩
      have hleft := (Node.all_mk.mp hn).2 left (by simp)
      simpa [hleft] using Node.all_mk.mpr ⟨hplain _ _ _ _ rfl, by simp⟩
  · exact .pure ⟨rfl, rfl, fun _ _ => id⟩

/-- Binding parameters leaves them at their places. -/
theorem gives_bindArrowParams {isAsync : Bool} :
    ∀ {params : List Node} {ps : Parameters},
      Gives source (bindArrowParams isAsync params ps) r fun bound later => later = r ∧
        ∃ more, bound.list = ps.list ++ more ∧ (∀ n ∈ more, n.role = .param) ∧
          more.map Node.stop? = params.map Node.stop? ∧
          ∀ P : Node → Prop, (∀ form role span parts, form.isPlain = true → P (.mk form role span parts)) →
            (∀ n role, P n → P (n.withRole role)) → (∀ n ∈ params, n.All P) → ∀ n ∈ more, n.All P
  | [], ps => .pure ⟨rfl, [], by simp⟩
  | param :: rest, ps => by
      unfold bindArrowParams
      refine (gives_yieldDefault param).bind fun bound later _ ⟨hlater, hstop, hbound⟩ => ?_
      rw [hlater]
      split
      · exact .unexpectedAhead
      refine .after_still still_strict fun strict => ?_
      have hnoted := reversed_foldl (fun ps name => reversed_bind ps strict ⟨none⟩ name) ps
        (boundNames bound)
      refine gives_bindArrowParams.mono ?_
      rintro found last - ⟨hlast, more, hlist, hroles, hstops, hmore⟩
      refine ⟨hlast, bound.withRole .param :: more, ?_, ?_, ?_, fun P hplain hrole hparams => ?_⟩
      · rw [hlist]
        simp [Parameters.list, hnoted]
      · exact List.forall_mem_cons.mpr ⟨role_withRole _ _, hroles⟩
      · simp [hstops, hstop]
      · obtain ⟨hparam, hrest⟩ := List.forall_mem_cons.mp hparams
        exact List.forall_mem_cons.mpr
          ⟨all_withRole hrole (hbound P hplain hparam), hmore P hplain hrole hrest⟩

/-- Nodes that an arrow would make parameters: a pledge stands for the arrow function. -/
structure Binds (source : List Char) (r : Reading) (ns params : List Node) : Prop where
  account : Accounted source r (params ++ pledge :: ns)
  headless : ∀ param ∈ params, param.Headless
  ends : ∀ last, params.getLast? = some last → ∃ stop, last.stop? = some stop ∧ EndsList r stop

/-- The parameters of an arrow function are bound, and the arrow is still to come. -/
structure Bound.Params (source : List Char) (r : Reading) (ns : List Node) (ps : Parameters) :
    Prop where
  account : Accounted source r (ps.list ++ pledge :: ns)
  headless : ∀ param ∈ ps.list, param.Headless
  items : ∃ closing, (closing = [] ∨ closing = [")"]) ∧ Items r .param ps.list closing

theorem Binds.bindArrowParams {params : List Node} {isAsync : Bool} (h : Binds source r ns params) :
    Gives source (bindArrowParams isAsync params {}) r fun ps later =>
      later = r ∧ Bound.Params source r ns ps := by
  refine gives_bindArrowParams.mono ?_
  rintro ps later - ⟨hlater, more, hlist, hroles, hstops, hmore⟩
  have hlist : ps.list = more := hlist
  have hheadless : ∀ n ∈ more, n.Headless :=
    hmore _ (fun _ _ _ _ hplain => Form.ne_arrowHead_of_isPlain hplain)
      (fun n role hn => by cases n; exact hn) h.headless
  have hlisted : ∀ n ∈ more, n.All (Listed r) :=
    hmore _ (fun _ _ _ _ hplain => listed_of_isPlain hplain)
      (fun n role hn => by cases n; exact hn)
      fun param hparam => h.account.listed param (List.mem_append_left _ hparam)
  refine ⟨hlater, ?_, hlist ▸ hheadless, ?_⟩
  · rw [hlist]
    refine h.account.exchange (fun _ => ⟨pledge, by simp, shows_pledge⟩) (fun n hn => ?_)
      fun hwaiting n hn => ?_
    · obtain hn | hn := List.mem_append.mp hn
      · exact hlisted n hn
      · exact h.account.listed n (List.mem_append_right _ hn)
    · obtain hn | hn := List.mem_append.mp hn
      · exact hheadless n hn
      · exact hwaiting n (List.mem_append_right _ hn)
  · rw [hlist]
    refine Items.of_endsList hroles fun last hlast => ?_
    have hstop : (params.map Node.stop?).getLast? = some last.stop? := by
      rw [← hstops, List.getLast?_map, hlast]
      rfl
    rw [List.getLast?_map, Option.map_eq_some_iff] at hstop
    obtain ⟨param, hparam, heq⟩ := hstop
    exact heq ▸ h.ends param hparam

/-- An expression that may be the head of an arrow function binds what it lists. -/
structure MayHead (source : List Char) (r : Reading) (ns : List Node) (expr : Node) : Prop where
  name : ∀ name, expr.form = .identifier name → Binds source r ns [expr]
  head : ∀ isAsync, expr.form = .arrowHead isAsync → Binds source r ns expr.parts

/-- The parameters of an arrow function, or nothing where the expression is no head of one. -/
def ParamsRead (source : List Char) (r : Reading) (ns : List Node) (expr : Node) :
    Option (Parameters × Bool) → Prop
  | some bound => Bound.Params source r ns bound.1
  | none => ∀ isAsync, expr.form ≠ .arrowHead isAsync

theorem Binds.gives_params {params : List Node} (h : Binds source r ns params) (expr : Node)
    (isAsync : Bool) :
    Gives source (do
      let ps ← Grammar.bindArrowParams isAsync params {}
      let c ← context
      if (c.strict || !c.allowYield) && ps.list.any (fun p => p.form matches .yield _) then
        unexpected (← ahead)
      if ps.fault = some .strictDuplicateParameter then failBehind .strictDuplicateParameter
      return some (ps, isAsync)) r fun found later =>
        later = r ∧ ParamsRead source r ns expr found := by
  refine h.bindArrowParams.bind ?_
  rintro ps later _ ⟨hlater, hps⟩
  refine .after_still still_context fun c => ?_
  dsimp only
  split
  · exact .unexpectedAhead
  · exact .unless (fails_failBehind _) fun _ => .pure ⟨hlater, hlater ▸ hps⟩

theorem gives_arrowParams {expr : Node} (h : MayHead source r ns expr) :
    Gives source (arrowParams expr) r fun found later =>
      later = r ∧ ParamsRead source r ns expr found := by
  obtain ⟨form, role, span, parts⟩ := expr
  unfold arrowParams
  cases form with
  | identifier name => exact (h.name name rfl).gives_params _ false
  | arrowHead isAsync => exact (h.head isAsync rfl).gives_params _ isAsync
  | _ => exact .pure ⟨rfl, by simp [ParamsRead, Node.form]⟩

/-- The arrow and what stands behind it, a body in braces or an expression. -/
theorem Bound.Params.gives_arrowBody {ps : Parameters} (hps : Bound.Params source r ns ps)
    (hg : g.Sound source) (hheadless : ∀ n ∈ ns, n.Headless) :
    Gives source (do
      expect "=>"
      if ← sees "\x7b" then
        pure (← withIn true (functionBody g), false)
      else
        let body ← isolate g.assignment
        pure (body, body.form ≠ .block)) r fun body later =>
      Accounted source later (body.1 :: (ps.list ++ pledge :: ns)) ∧
        ∃ next, r.ahead.lexeme = .punctuator "=>" ∧ (r.after next).Sound source ∧
          (r.after next).Extends later ∧
          ∃ start, body.1.start? = some start ∧ BeginsAt (r.after next) later start := by
  refine .expect_bind fun next harrow => .of_sound fun hnext _ => ?_
  have h := hps.account.after hnext (by simp [harrow, Lexeme.newer]) fun n hn => by
    obtain hn | hn := List.mem_append.mp hn
    · exact hps.headless n hn
    obtain rfl | hn := List.mem_cons.mp hn
    · exact Node.headless_mk.mpr (by simp)
    · exact hheadless n hn
  refine .sees_bind (fun _ => ?_) fun _ => ?_
  · refine (gives_functionBody hg h).withIn.bind ?_
    rintro body later hlater ⟨h, hpast, hstart, _⟩
    exact .pure ⟨h, next, harrow, hnext, hlater, _, hstart, hpast.beginsAt hnext⟩
  · refine (hg.assignment h).isolate.bind ?_
    rintro body later hlater ⟨h, _, hbody⟩
    exact .pure ⟨h, next, harrow, hnext, hlater, hbody.start⟩

/-- An arrow function: its body begins behind the arrow, in parentheses perhaps. -/
theorem gives_arrow (hg : g.Sound source) (hr : r₀.Sound source) (hpast : Past r₀ r)
    {ps : Parameters} {isAsync : Bool} (hps : Bound.Params source r ns ps)
    (hheadless : ∀ n ∈ ns, n.Headless) :
    Gives source (arrow g r₀.ahead ps isAsync) r fun n later =>
      Accounted source later (n :: ns) ∧ Past r₀ later ∧ Whole r₀ later n := by
  have hsound := hps.account.sound
  unfold arrow
  refine .after_still still_lineBreak fun broken => ?_
  split
  · exact .unexpectedAhead
  refine .after_still (still_modifyContext _) fun _ => .withSuspension ?_
  refine Gives.bind (.withStrictness (.after_still (still_modifyContext _) fun _ =>
    (hps.gives_arrowBody hg hheadless).bind fun body later _ hn => .after_still (still_checkStrictParameters ps _) fun _ =>
      .pure hn)) ?_
  rintro ⟨body, isExpression⟩ later hlater ⟨h, next, harrow, hnext, hextends, start, hstart, hbegins⟩
  obtain ⟨closing, hclosing, hitems⟩ := hps.items
  obtain ⟨hedge, hstop, n, hmarks⟩ := hbegins
  refine gives_nodeFrom fun span hspan hspan_stop => ⟨?_, hpast.trans hlater, ?_⟩
  · refine .redeem (h.node ?_ (by simp) ?_) (Node.shows_mk.mpr (.inl rfl))
    · simp [SameTrees, or_left_comm]
    · obtain ⟨hparams, hbody⟩ := parts_of_function body (fun n hn => absurd hn List.not_mem_nil)
        hitems.roles
      have hlisting : (Node.mk (.arrow isAsync isExpression) .part (some span)
          (ps.list ++ [body.withRole .body])).listing? =
            some ⟨ps.list, some start, .parameterComma⟩ := by
        simp only [List.nil_append] at hparams hbody
        simp [Node.listing?, Node.form, Node.partsAs, Node.parts, hparams, hbody, hstart]
      refine (hitems.after hsound harrow next).listedUpTo (List.replicate n "(") ?_ hnext hextends
        hedge hstop hmarks hlisting
      obtain rfl | rfl := hclosing
      · exact ⟨n, .inr rfl⟩
      · exact ⟨n, .inl rfl⟩
  · exact (hpast.trans hlater).whole hr h.sound hspan hspan_stop (by simp)

/-! ## Assignments -/

theorem still_seesExpressionStart : Still seesExpressionStart := by
  refine still_ahead.bind fun t => ?_
  split <;> exact still_pure _

theorem adds_yieldExpression (hg : g.Sound source) : AddsWhole source (yieldExpression g) := by
  intro r ns h
  have hr := h.sound
  unfold yieldExpression
  refine .here_bind fun start hstart => ?_
  refine h.expectKeyword_bind fun next _ h => ?_
  have hpast : Past r (r.after next) := .of_after hr (.refl _)
  refine .after_still still_lineBreak fun broken => ?_
  split
  · exact h.gives_whole hr hpast hstart (fun _ => Iff.rfl) rfl (by simp)
  have hargument : Gives source (keepingYield do
      setYield false
      if ← accept "*" then pure (some (← g.assignment))
      else if ← seesExpressionStart then pure (some (← g.assignment))
      else pure none) (r.after next) fun argument later =>
        Accounted source later (argument.toList ++ ns) := by
    have hsome : ∀ {r : Reading}, Accounted source r ns →
        Gives source (do pure (some (← g.assignment))) r fun argument later =>
          Accounted source later (argument.toList ++ ns) := by
      refine fun h => (hg.assignment h).bind fun argument later _ ⟨h, _, _⟩ => .pure ?_
      exact h
    refine .keepingYield (.after_still (still_modifyContext _) fun _ => ?_)
    refine h.accept_bind (by decide) (fun next _ h => hsome h) fun _ => ?_
    refine .after_still still_seesExpressionStart fun starts => ?_
    split
    · exact hsome h
    · exact .pure h
  refine hargument.bind fun argument later hlater h => ?_
  exact h.gives_whole hr (hpast.trans hlater) hstart (fun _ => Iff.rfl) rfl (by simp)

/-- An expression that an arrow may follow: what operands read, or the word `async` with the
parameter behind it. -/
structure ReadsHead (source : List Char) (r₀ later : Reading) (ns : List Node) (n : Node) : Prop where
  past : Past r₀ later
  ahead : r₀.ahead.lexeme ≠ .punctuator "=>"
  node : (Accounted source later (n :: ns) ∧ (Whole r₀ later n ∨ Waits later n)) ∨
    (∃ isAsync, n.form = .arrowHead isAsync) ∧ Binds source later ns n.parts

theorem gives_asyncArrowParam (hg : g.Sound source) {expr : Node}
    (h : Accounted source r (expr :: ns)) (hexpr : Reads r₀ r expr) :
    Gives source (asyncArrowParam g r₀.ahead expr) r fun n later => ReadsHead source r₀ later ns n := by
  unfold asyncArrowParam
  refine .ahead_bind ?_
  split
  · rename_i hseen
    have hword : (∃ name, r.ahead.lexeme = .identifier name) ∨
        ∃ word, r.ahead.lexeme = .keyword word := by
      simp only [Bool.and_eq_true, Bool.or_eq_true, decide_eq_true_eq] at hseen
      obtain ⟨-, hname | hyield⟩ := hseen
      · refine .inl ?_
        unfold Token.isIdentifier at hname
        split at hname
        · exact ⟨_, by assumption⟩
        · cases hname
      · exact .inr ⟨_, hyield⟩
    refine (gives_wordOperand hg h.pledge hword).bind fun param later hlater hparam => .pure ?_
    obtain ⟨h, _, hparam, hheadless⟩ := hparam
    have hheadless : (asPattern param).Headless :=
      all_asPattern (fun _ _ _ _ _ _ _ hplain _ => Form.ne_arrowHead_of_isPlain hplain) hheadless
    refine ⟨hexpr.past.trans hlater, hexpr.ahead, .inr ⟨⟨true, rfl⟩, ?_, ?_, ?_⟩⟩
    · refine h.asPattern.drop ?_ ⟨pledge, by simp, shows_pledge⟩
      simp [arrowHead, Node.parts, List.subset_def]
      tauto
    · simpa [arrowHead, Node.parts] using hheadless
    · intro last hlast
      obtain rfl : asPattern param = last := by simpa [arrowHead, Node.parts] using hlast
      obtain ⟨stop, hstop, hends⟩ := hparam.stop
      exact ⟨stop, by simpa [Node.stop?] using hstop, hends.endsList⟩
  · exact .pure ⟨hexpr.past, hexpr.ahead, .inl ⟨h, hexpr.node⟩⟩

/-- The parts of a node may stand for it beside a pledge. -/
theorem Accounted.opened {form : Form} {role : Role} {span : Option Span} {parts : List Node}
    (h : Accounted source r (.mk form role span parts :: ns)) :
    Accounted source r (parts ++ Grammar.pledge :: ns) := by
  refine h.pledge.exchange (fun _ => ⟨Grammar.pledge, by simp, shows_pledge⟩) (fun n hn => ?_)
    fun hheadless n hn => ?_
  · obtain hn | hn := List.mem_append.mp hn
    · exact (Node.all_mk.mp (h.listed _ List.mem_cons_self)).2 n hn
    obtain rfl | hn := List.mem_cons.mp hn
    · exact h.pledge.listed _ List.mem_cons_self
    · exact h.listed n (List.mem_cons_of_mem _ hn)
  · obtain hn | hn := List.mem_append.mp hn
    · have hnode : (Node.mk form role span parts).Headless := hheadless _ (by simp)
      exact (Node.headless_mk.mp hnode).2 n hn
    · exact hheadless n (by simp at hn ⊢; tauto)

theorem ReadsHead.mayHead {expr : Node} (h : ReadsHead source r₀ r ns expr) :
    MayHead source r ns expr := by
  obtain ⟨h, hwhole | ⟨isAsync, params, rfl, hheadless, hends⟩⟩ | ⟨⟨isAsync, hform⟩, hbinds⟩ := h.node
  · refine ⟨fun name hname => ⟨h.pledge.regroup (by simp [SameTrees, or_left_comm]), ?_, ?_⟩,
      fun isAsync hform => absurd hform (hwhole.head isAsync)⟩
    · intro param hparam
      obtain rfl := List.mem_singleton.mp hparam
      obtain ⟨form, role, span, parts⟩ := param
      obtain rfl : form = .identifier name := hname
      obtain rfl : parts = [] := hwhole.name name rfl
      exact Node.headless_mk.mpr (by simp)
    · intro last hlast
      obtain rfl : expr = last := by simpa using hlast
      obtain ⟨stop, hstop, hends⟩ := hwhole.stop
      exact ⟨stop, hstop, hends.endsList⟩
  · exact ⟨by simp [arrowHead, Node.form], fun _ _ => ⟨h.opened, hheadless, hends⟩⟩
  · exact ⟨by simp [hform], fun _ _ => hbinds⟩

/-- What waits for no arrow spans what was read. -/
theorem ReadsHead.whole {expr : Node} (h : ReadsHead source r₀ r ns expr)
    (hform : ∀ isAsync, expr.form ≠ .arrowHead isAsync) :
    Accounted source r (expr :: ns) ∧ Whole r₀ r expr := by
  obtain ⟨h, hwhole | ⟨isAsync, params, rfl, -⟩⟩ | ⟨⟨isAsync, heq⟩, -⟩ := h.node
  · exact ⟨h, hwhole⟩
  · exact absurd rfl (hform isAsync)
  · exact absurd heq (hform isAsync)

theorem gives_assignmentTail (hg : g.Sound source) (hr : r₀.Sound source) {target : Node}
    (h : Accounted source r (target :: ns)) (hpast : Past r₀ r)
    (hquiet : r.ahead.lexeme.Quiet) :
    Gives source (assignmentTail g r₀.ahead target) r fun n later =>
      Accounted source later (n :: ns) ∧ Past r₀ later ∧ Whole r₀ later n := by
  have hsound := h.sound
  have hvalue : ∀ {left : Node}, Accounted source r (left :: ns) → Gives source (do
      let token ← advance
      let right ← isolate g.assignment
      let result ← nodeFrom r₀.ahead (.assignment token.lexeme.text) [left, right]
      modifyContext fun c => { c with pendingDefault := none }
      return result) r fun n later =>
        Accounted source later (n :: ns) ∧ Past r₀ later ∧ Whole r₀ later n := by
    intro left h
    refine h.quiet_bind hquiet fun next h => ?_
    refine (hg.assignment h).isolate.bind fun right later hlater ⟨h, _, _⟩ => ?_
    have hpast := hpast.trans ((hsound.extends_after next).trans hlater)
    refine .bind (h.gives_wholeFrom hr hpast (by simp [SameTrees, or_left_comm]) rfl (by simp))
      fun n last _ hn => .after_still (still_modifyContext _) fun _ => .pure hn
  unfold assignmentTail
  refine .after_still still_context fun c => .unless (fails_failAhead _) fun _ => ?_
  have hsign : Gives source (do
      let plain ← sees "="
      if !plain then notPattern
      let left := if plain then asPattern target else target
      let token ← advance
      let right ← isolate g.assignment
      let result ← nodeFrom r₀.ahead (.assignment token.lexeme.text) [left, right]
      modifyContext fun c => { c with pendingDefault := none }
      return result) r fun n later =>
        Accounted source later (n :: ns) ∧ Past r₀ later ∧ Whole r₀ later n :=
    .sees_bind (fun _ => hvalue h.asPattern)
      fun _ => .after_still (still_modifyContext _) fun _ => hvalue h
  refine .after_still still_strict fun strict => ?_
  dsimp only
  split
  · split
    · refine .unless (fails_failAt _ _) fun _ => .unless (fails_failAt _ _) fun _ => ?_
      exact hsign
    · exact hsign
  · exact hsign

/-- Behind a head, an arrow makes a function of it; without parameters it stays what it was. -/
theorem ReadsHead.gives_arrow (hg : g.Sound source) (hr : r₀.Sound source) {expr : Node}
    (h : ReadsHead source r₀ r ns expr) (hheadless : ∀ n ∈ ns, n.Headless) :
    Gives source (do
      notPattern
      match ← arrowParams expr with
      | some (ps, isAsync) => arrow g r₀.ahead ps isAsync
      | none => return expr) r fun n later =>
        Accounted source later (n :: ns) ∧ Past r₀ later ∧ Whole r₀ later n := by
  refine .after_still (still_modifyContext _) fun _ => ?_
  refine (gives_arrowParams h.mayHead).bind ?_
  rintro found later _ ⟨hlater, hfound⟩
  rw [hlater]
  cases found with
  | some bound => exact Grammar.gives_arrow hg hr h.past hfound hheadless
  | none =>
      obtain ⟨haccount, hwhole⟩ := h.whole hfound
      exact .pure ⟨haccount, h.past, hwhole⟩

theorem adds_assignment (hg : g.Sound source) : AddsWhole source (assignment g) := by
  intro r ns h
  have hr := h.sound
  unfold assignment
  refine .after_still still_context fun c => .after_still (still_seesKeyword _) fun yields => ?_
  split
  · exact adds_yieldExpression hg h
  refine .ahead_bind ((adds_conditional hg h).bind ?_)
  rintro operand mid _ ⟨hoperand, hreads⟩
  refine (gives_asyncArrowParam hg hoperand hreads).bind fun expr later _ hexpr => ?_
  refine .after_still (still_sees _) fun arrow => ?_
  have harrow := hexpr.gives_arrow hg hr (h.headless hexpr.ahead)
  split
  · exact harrow
  rename_i hform
  split
  · exact harrow
  obtain ⟨h, hwhole⟩ := hexpr.whole hform
  refine .tests_bind tests_seesAssignment fun assigns hassigns => ?_
  split
  · rename_i hseen
    exact gives_assignmentTail hg hr h hexpr.past (hassigns hseen)
  · exact .pure ⟨h, hexpr.past, hwhole⟩

end EditionSurvey.Script.Grammar
