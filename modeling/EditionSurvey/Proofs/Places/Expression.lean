/-
  Proofs/Places/Expression.lean --- operands and expressions are placed.

  The operands are literals, names, groups, and what stands behind them; operators join operands.
  The left operand of an operator is kept with the token it starts at, which is where the node of the
  operator starts too.
-/
import EditionSurvey.Proofs.Places.Member

set_option autoImplicit false

namespace EditionSurvey.Script.Grammar

variable {text : List Char} {g : Productions}

/-! ## Templates -/

theorem places_quasi (first : Bool) :
    Keeps text (quasi first) fun found => found.1.Placed text := by
  refine keeps_ahead.bind fun t _ => ?_
  split
  · refine .unless keeps_headless (keeps_here.bind fun start hstart => ?_)
    exact keeps_advance.bind fun _ _ => (keeps_leaf hstart).bind fun n hn => .pure hn
  · exact keeps_failBehind _

theorem places_substitutions (hg : g.Placed text) (fuel : Nat) :
    ∀ {pieces exprs : List Node}, (∀ n ∈ pieces, n.Placed text) → (∀ n ∈ exprs, n.Placed text) →
      Keeps text (substitutions g fuel pieces exprs) fun found =>
        (∀ n ∈ found.1, n.Placed text) ∧ ∀ n ∈ found.2, n.Placed text := by
  induction fuel with
  | zero => exact fun _ _ => keeps_tooDeep
  | succ fuel ih =>
      intro pieces exprs hpieces hexprs
      refine (places_expression hg).bind fun expr hexpr => (places_quasi _).bind fun found hfound => ?_
      have hpieces := List.forall_mem_cons.mpr ⟨hfound, hpieces⟩
      have hexprs := List.forall_mem_cons.mpr ⟨hexpr, hexprs⟩
      refine .ite (.pure ⟨fun n hn => ?_, fun n hn => ?_⟩) (ih hpieces hexprs)
      · exact hpieces n (List.mem_reverse.mp hn)
      · exact hexprs n (List.mem_reverse.mp hn)

/-- The pieces of a template start at their own tokens, and what is substituted is placed by the level
below. -/
theorem places_template (hg : g.Placed text) : Places text (template g) := by
  refine keeps_here.bind fun start hstart => (places_quasi _).bind fun found hfound => ?_
  refine .ite (keeps_node hstart (by simpa using hfound)) (keeps_budget.before fun _ => ?_)
  refine (places_substitutions hg _ (by simpa using hfound) (by simp)).bind fun found hfound => ?_
  exact keeps_node hstart (List.forall_mem_append.mpr hfound)

theorem keeps_seesTemplateHead : Keeps text seesTemplateHead fun _ => True := by
  refine keeps_ahead.bind fun t _ => ?_
  split <;> exact .pure trivial

/-! ## Arrays -/

/-- The holes of an array literal leave no node, so nothing has to be placed for them. -/
theorem places_arrayLiteral (hg : g.Placed text) : Places text (arrayLiteral g) := by
  have hdone : ∀ element : Node, element.Placed text →
      Keeps text (pure (some (some element))) fun found =>
        ∀ hole ∈ found, ∀ n ∈ hole, Node.Placed text n :=
    fun element h => .pure (by simpa using h)
  refine keeps_here.bind fun start hstart => (keeps_expect _).before fun _ => ?_
  refine (Keeps.many (R := fun hole => ∀ n ∈ hole, Node.Placed text n) ?_).bind
    fun elements helements => (keeps_expect _).before fun _ => keeps_node hstart fun n hn => ?_
  · refine (keeps_sees _).before fun _ => .ite (.pure (by simp)) ?_
    refine (keeps_accept _).before fun _ => .ite (.pure (by simp)) ?_
    refine (keeps_sees _).before fun _ => .ite ?_ ?_
    · refine (places_spread hg).bind fun element h => (keeps_sees _).before fun _ => ?_
      refine .ite (.before keeps_notPattern fun _ => ?_) (hdone element h)
      exact (keeps_expect _).before fun _ => hdone element h
    · exact hg.assignment.inherit.bind fun element h => .expectUnless (hdone element h)
  · obtain ⟨hole, hhole, hn⟩ := List.mem_filterMap.mp hn
    exact helements hole hhole n hn

/-! ## Groups -/

/-- What the rest of a group holds is placed. -/
def GroupRest.Placed (text : List Char) : GroupRest → Prop
  | .expressions list => ∀ n ∈ list, n.Placed text
  | .params list => ∀ n ∈ list, n.Placed text

/-- A group is read before it is known whether it holds the parameters of an arrow function.  Its nodes
are turned into patterns then, and these stand where the nodes did. -/
theorem places_groupRest (hg : g.Placed text) (fuel : Nat) :
    ∀ {reversed : List Node}, (∀ n ∈ reversed, n.Placed text) →
      Keeps text (groupRest g fuel reversed) (GroupRest.Placed text) := by
  induction fuel with
  | zero => exact fun _ => keeps_tooDeep
  | succ fuel ih =>
      intro reversed h
      have hlist : ∀ n ∈ reversed.reverse, n.Placed text := fun n hn => h n (List.mem_reverse.mp hn)
      refine (keeps_accept _).before fun _ => .ite (.pure hlist) ?_
      refine (keeps_accept _).before fun _ => .ite (.pure (placed_each hlist)) ?_
      refine (keeps_sees _).before fun _ => .ite ?_ ?_
      · have hrest : Keeps text (do
            let bound ← restParameter g
            expect ")"
            if !(← sees "=>") then expect "=>"
            modifyContext fun c => { c with isBinding := false }
            return .params (eachAsPattern (bound.1 :: reversed).reverse)) (GroupRest.Placed text) := by
          refine (places_restParameter hg).bind fun bound hbound => ?_
          have hparams : ∀ n ∈ (bound.1 :: reversed).reverse, n.Placed text := fun n hn =>
            List.forall_mem_cons.mpr ⟨hbound.1, h⟩ n (List.mem_reverse.mp hn)
          refine (keeps_expect _).before fun _ => .expectUnless ?_
          exact .before (keeps_adjust fun _ => rfl) fun _ => .pure (placed_each hparams)
        refine keeps_context.bind fun c _ => .ite ?_ hrest
        exact .unexpectedAhead
      · exact hg.assignment.inherit.bind fun n hn => ih (List.forall_mem_cons.mpr ⟨hn, h⟩)

theorem places_closeGroup {expr : Node} (hexpr : expr.Placed text) :
    Places text (closeGroup expr) := by
  have hdone : ∀ result : Node, result.Placed text → Places text (do
      modifyContext fun c => { c with isBinding := false }
      return result) := fun result h => .before (keeps_adjust fun _ => rfl) fun _ => .pure h
  refine (keeps_expect _).before fun _ => (keeps_sees _).before fun _ => .ite (.ite ?_ ?_) ?_
  · exact hdone _ (Node.placed_arrowHead (by simpa using hexpr))
  · refine keeps_context.bind fun c _ => .ite ?_ ?_
    · exact .unexpectedAhead
    · dsimp only
      split
      · exact hdone _ (Node.placed_arrowHead (placed_each hexpr.parts))
      · exact hdone _ (Node.placed_arrowHead (by simpa using placed_asPattern hexpr))
  · exact hdone _ hexpr

/-- A group is placed, whether it turns out to be an expression or the head of an arrow function. -/
theorem places_parenthesised (hg : g.Placed text) : Places text (parenthesised g) := by
  have harrow : ∀ params : List Node, (∀ n ∈ params, n.Placed text) → Places text (do
      if !(← sees "=>") then expect "=>"
      return arrowHead false params) :=
    fun _ h => .expectUnless (.pure (Node.placed_arrowHead h))
  refine (keeps_expect _).before fun _ => (keeps_accept _).before fun _ => ?_
  refine .ite (harrow [] (by simp)) (keeps_ahead.bind fun t ht => (keeps_sees _).before fun _ => ?_)
  refine .ite ?_ ?_
  · refine (places_restParameter hg).bind fun bound hbound => (keeps_expect _).before fun _ => ?_
    exact harrow [bound.1] (by simpa using hbound.1)
  · refine .before (keeps_adjust fun _ => rfl) fun _ => hg.assignment.inherit.bind fun first h => ?_
    refine (keeps_sees _).before fun _ => .ite (places_closeGroup h) ?_
    refine .before (keeps_adjust fun _ => rfl) fun _ => keeps_budget.before fun _ => ?_
    refine (places_groupRest hg _ (by simpa using h)).bind fun rest hrest => ?_
    split
    · exact .pure (Node.placed_arrowHead hrest)
    · exact (keeps_nodeFrom ht hrest).bind fun n hn => places_closeGroup hn

/-! ## Operands -/

theorem keeps_seesImportCall : Keeps text seesImportCall fun _ => True := by
  refine (keeps_seesKeyword _).before fun _ => .ite (.pure trivial) ?_
  exact keeps_peekBeyond.before fun _ => .pure trivial

theorem places_literal (value : Option String) : Places text (literal value) := by
  refine keeps_here.bind fun start hstart => keeps_notPattern.before fun _ => ?_
  exact keeps_advance.bind fun _ _ => keeps_leaf hstart

theorem places_patternLiteral : Places text patternLiteral := by
  refine keeps_here.bind fun start hstart => keeps_notPattern.before fun _ => ?_
  refine keeps_advancePattern.bind fun t ht => ?_
  split
  · exact keeps_leaf hstart
  · exact keeps_unexpected ht

theorem places_keywordOperand (hg : g.Placed text) : Places text (keywordOperand g) := by
  refine keeps_here.bind fun start hstart => keeps_context.bind fun c _ => ?_
  refine (keeps_seesKeyword _).before fun _ => .ite places_propertyWord ?_
  refine (keeps_seesKeyword _).before fun _ => .ite ?_ (keeps_notPattern.before fun _ => ?_)
  · exact keeps_advance.bind fun _ _ => keeps_leaf hstart
  refine (keeps_seesKeyword _).before fun _ => .ite (places_functionExpression hg) ?_
  refine (keeps_seesKeyword _).before fun _ => .ite ?_ ?_
  · exact keeps_advance.bind fun _ _ => keeps_leaf hstart
  refine (keeps_seesKeyword _).before fun _ => .ite (places_classExpression hg) ?_
  refine keeps_seesImportCall.before fun _ => .ite ?_ ?_
  · exact (keeps_expectKeyword _).before fun _ => keeps_leaf hstart
  · exact keeps_advance.bind fun t ht => keeps_unexpected ht

/-- An operand without what stands behind it is placed.  A token that starts none is reported where it
stands. -/
theorem places_primary (hg : g.Placed text) : Places text (primary g) := by
  refine keeps_here.bind fun start hstart => keeps_ahead.bind fun t ht => ?_
  split
  · refine keeps_context.bind fun c _ => .unless (keeps_unexpected ht) ?_
    refine keeps_seesAsyncFunction.before fun _ => .ite (places_functionExpression hg) ?_
    exact keeps_advance.bind fun _ _ => keeps_leaf hstart
  · exact keeps_strict.before fun _ => .unless (keeps_failAt ht _) (places_literal _)
  · exact keeps_strict.before fun _ => .unless (keeps_failAt ht _) (places_literal _)
  · exact places_literal _
  · exact places_literal _
  · exact places_template hg
  · exact .before (keeps_adjust fun _ => rfl) fun _ => (places_parenthesised hg).inherit
  · exact (places_arrayLiteral hg).inherit
  · exact (places_objectLiteral hg).inherit
  · exact places_patternLiteral
  · exact places_patternLiteral
  · exact places_keywordOperand hg
  · exact keeps_advance.bind fun t ht => keeps_unexpected ht

/-! ## Members and calls -/

theorem places_arguments (hg : g.Placed text) {argument : Parse Node}
    (hargument : Places text argument) :
    Keeps text (arguments g argument) fun list => ∀ n ∈ list, n.Placed text := by
  have hcomma : ∀ arg : Node, arg.Placed text → Keeps text (do
      if !(← sees ")") then expect ","
      return some (arg.withRole .argument)) fun found => ∀ n ∈ found, Node.Placed text n :=
    fun _ harg => .expectUnless (.pure (by simpa using harg))
  refine (keeps_expect _).before fun _ => ?_
  refine (Keeps.many (R := Node.Placed text) ?_).bind fun list hlist =>
    (keeps_expect _).before fun _ => .pure hlist
  refine (keeps_sees _).before fun _ => .ite (.pure (by simp)) ?_
  refine (keeps_sees _).before fun _ => .ite ?_ ?_
  · exact (places_spread hg).bind hcomma
  · exact hargument.isolate.bind hcomma

theorem places_asyncArgument (hg : g.Placed text) : Places text (asyncArgument g) :=
  hg.assignment.bind fun _ hn =>
    .before (keeps_forget fun _ => rfl) fun _ => .pure hn

theorem keeps_placeOnly : Keeps text placeOnly fun _ => True := keeps_adjust fun _ => rfl

theorem places_dotMember {t : Token} (ht : t.Stands text) {object : Node}
    (hobject : object.Placed text) : Places text (dotMember t object) :=
  keeps_placeOnly.before fun _ => (keeps_expect _).before fun _ =>
    places_propertyWord.bind fun name hname => keeps_nodeFrom ht (by simp [hobject, hname])

theorem places_bracketMember (hg : g.Placed text) {t : Token} (ht : t.Stands text) {object : Node}
    (hobject : object.Placed text) : Places text (bracketMember g t object) :=
  keeps_placeOnly.before fun _ => (keeps_expect _).before fun _ =>
    (places_expression hg).isolate.bind fun name hname => (keeps_expect _).before fun _ =>
      keeps_nodeFrom ht (by simp [hobject, hname])

theorem places_taggedTemplate (hg : g.Placed text) {t : Token} (ht : t.Stands text) {tag : Node}
    (htag : tag.Placed text) : Places text (taggedTemplate g t tag) :=
  (places_template hg).bind fun quasi hquasi => keeps_nodeFrom ht (by simp [htag, hquasi])

/-- What is joined to an operand by dots, brackets and templates starts where the operand does. -/
theorem places_memberChain (hg : g.Placed text) {t : Token} (ht : t.Stands text) (fuel : Nat) :
    ∀ {expr : Node}, expr.Placed text → Places text (memberChain g t fuel expr) := by
  induction fuel with
  | zero => exact fun _ => keeps_tooDeep
  | succ fuel ih =>
      intro expr h
      refine (keeps_sees _).before fun _ => .ite ?_ ?_
      · exact (places_bracketMember hg ht h).bind fun n hn => ih hn
      refine (keeps_sees _).before fun _ => .ite ?_ ?_
      · exact (places_dotMember ht h).bind fun n hn => ih hn
      refine keeps_seesTemplateHead.before fun _ => .ite ?_ (.pure h)
      exact (places_taggedTemplate hg ht h).bind fun n hn => ih hn

theorem places_newExpression (hg : g.Placed text) : Places text (newExpression g) := by
  refine keeps_here.bind fun start hstart => places_propertyWord.bind fun word hword => ?_
  refine (keeps_accept _).before fun _ => .ite ?_ ?_
  · refine keeps_context.bind fun c _ => (keeps_seesName _).before fun _ => .ite ?_ ?_
    · exact places_propertyWord.bind fun target htarget => keeps_node hstart (by simp [hword, htarget])
    · exact keeps_unexpectedAhead
  refine (keeps_seesKeyword _).before fun _ => .ite ?_ (hg.callee.isolate.bind fun callee h => ?_)
  · exact keeps_unexpectedAhead
  have hnode : ∀ args : List Node, (∀ n ∈ args, n.Placed text) → Places text (do
      notPattern
      node start .new (callee.withRole .callee :: args)) := fun args hargs =>
    keeps_notPattern.before fun _ =>
      keeps_node hstart (List.forall_mem_cons.mpr ⟨(Node.placed_withRole _).mpr h, hargs⟩)
  refine (keeps_sees _).before fun _ => .ite ?_ (hnode [] (by simp))
  exact (places_arguments hg hg.assignment).bind hnode

theorem places_superOperand (followers : List String) : Places text (superOperand followers) := by
  refine keeps_here.bind fun start hstart => (keeps_expectKeyword _).before fun _ => ?_
  refine (keeps_leaf hstart).bind fun expr hexpr => (keeps_seesAny _).before fun _ => ?_
  refine .ite ?_ (.pure hexpr)
  exact .unexpectedAhead

theorem places_chainHead (hg : g.Placed text) (followers : List String) :
    Places text (chainHead g followers) := by
  refine (keeps_seesKeyword _).before fun _ => keeps_context.bind fun c _ => ?_
  refine .ite (places_superOperand _) ((keeps_seesKeyword _).before fun _ => ?_)
  exact .ite (places_newExpression hg).inherit (places_primary hg).inherit

theorem places_callee (hg : g.Placed text) : Places text (callee g) :=
  keeps_ahead.bind fun _ ht => keeps_budget.before fun _ =>
    (places_chainHead hg _).bind fun _ hn => places_memberChain hg ht _ hn

theorem places_call (hg : g.Placed text) {t : Token} (ht : t.Stands text) (mayBeArrow : Bool)
    {target : Node} (htarget : target.Placed text) : Places text (call g t mayBeArrow target) := by
  have hargument : Places text (if mayBeArrow then asyncArgument g else g.assignment) :=
    .ite (places_asyncArgument hg) hg.assignment
  refine keeps_notPattern.before fun _ => (places_arguments hg hargument).bind fun args hargs => ?_
  refine .unless (keeps_failAhead _) ?_
  have hparts := List.forall_mem_cons.mpr
    ⟨(Node.placed_withRole .callee).mpr htarget, hargs⟩
  refine (keeps_nodeFrom ht hparts).bind fun expr hexpr => (keeps_sees _).before fun _ => ?_
  exact .ite (.pure (Node.placed_arrowHead (placed_each hargs))) (.pure hexpr)

/-- So do calls.  The arguments of `async` may turn out to be the parameters of an arrow function. -/
theorem places_callChain (hg : g.Placed text) {t : Token} (ht : t.Stands text) (isAsync : Bool)
    (fuel : Nat) :
    ∀ {expr : Node}, expr.Placed text → Places text (callChain g t isAsync fuel expr) := by
  induction fuel with
  | zero => exact fun _ => keeps_tooDeep
  | succ fuel ih =>
      intro expr h
      refine (keeps_sees _).before fun _ => .ite ?_ ?_
      · exact (places_dotMember ht h).bind fun n hn => ih hn
      refine (keeps_sees _).before fun _ => .ite ?_ ?_
      · exact keeps_ahead.bind fun _ _ => (places_call hg ht _ h).bind fun n hn => ih hn
      refine (keeps_sees _).before fun _ => .ite ?_ ?_
      · exact (places_bracketMember hg ht h).bind fun n hn => ih hn
      refine keeps_seesTemplateHead.before fun _ => .ite ?_ (.pure h)
      exact (places_taggedTemplate hg ht h).bind fun n hn => ih hn

/-- An operand with all that stands behind it is placed. -/
theorem places_operand (hg : g.Placed text) : Places text (operand g) :=
  keeps_ahead.bind fun _ ht => (keeps_seesName _).before fun _ =>
    .withIn (keeps_budget.before fun _ =>
      (places_chainHead hg _).bind fun _ hn => places_callChain hg ht _ _ hn)

/-! ## Operators -/

theorem keeps_checkStepTarget (expr : Node) (fault : Fault) :
    Keeps text (checkStepTarget expr fault) fun _ => True := by
  refine keeps_strict.before fun _ => .unless (keeps_failAhead _) ?_
  exact keeps_context.bind fun c _ => .ite (keeps_failAhead _) (.pure trivial)

theorem places_stepped (hg : g.Placed text) : Places text (stepped g) := by
  refine keeps_ahead.bind fun t ht => (keeps_seesAny _).before fun _ => .ite ?_ ?_
  · refine keeps_advance.bind fun _ _ => hg.unary.inherit.bind fun expr hexpr => ?_
    refine (keeps_checkStepTarget _ _).before fun _ => ?_
    refine (keeps_nodeFrom ht (by simpa using hexpr)).bind fun n hn => ?_
    exact keeps_notPattern.before fun _ => .pure hn
  · refine (places_operand hg).inherit.bind fun expr hexpr => keeps_lineBreak.before fun _ => ?_
    refine (keeps_seesAny _).before fun _ => .ite ?_ (.pure hexpr)
    refine (keeps_checkStepTarget _ _).before fun _ => keeps_notPattern.before fun _ => ?_
    exact keeps_advance.bind fun _ _ => keeps_nodeFrom ht (by simpa using hexpr)

theorem keeps_seesPrefixOperator : Keeps text seesPrefixOperator fun _ => True := by
  refine keeps_ahead.bind fun t _ => ?_
  split <;> exact .pure trivial

theorem places_unary (hg : g.Placed text) : Places text (unary g) := by
  refine keeps_seesPrefixOperator.before fun _ => .ite ?_ ?_
  · refine keeps_ahead.bind fun t ht => keeps_advance.bind fun _ _ => ?_
    refine hg.unary.inherit.bind fun expr hexpr => ?_
    refine (keeps_nodeFrom ht (by simpa using hexpr)).bind fun n hn => ?_
    refine keeps_strict.before fun _ => .unless (keeps_failAhead _) ?_
    exact keeps_notPattern.before fun _ => .pure hn
  refine keeps_context.bind fun c _ => (keeps_seesName _).before fun _ => .ite ?_ ?_
  · refine keeps_here.bind fun start hstart => keeps_advance.bind fun _ _ => ?_
    exact hg.unary.bind fun expr hexpr => keeps_node hstart (by simpa using hexpr)
  · exact places_stepped hg

theorem places_power (hg : g.Placed text) : Places text (power g) := by
  refine keeps_ahead.bind fun t ht => (places_unary hg).inherit.bind fun base hbase => ?_
  split
  · exact .pure hbase
  refine (keeps_accept _).before fun _ => .ite (keeps_notPattern.before fun _ => ?_) (.pure hbase)
  exact hg.power.isolate.bind fun exponent hexponent => keeps_nodeFrom ht (by simp [hbase, hexponent])

/-- The left operand is placed, and it starts at a token of the text. -/
structure Pending.Placed (text : List Char) (pending : Pending) : Prop where
  left : pending.left.Placed text
  leftToken : pending.leftToken.Stands text

/-- The operand is placed, and it starts at a token of the text. -/
structure Operand.Placed (text : List Char) (operand : Operand) : Prop where
  node : operand.node.Placed text
  token : operand.token.Stands text

/-- Operators that bind tighter are joined at the top of the stack.  A joined operand starts at the token
of its left one. -/
theorem places_reduceTo (limit : Nat) : ∀ (pending : List Pending) {right : Operand},
    (∀ top ∈ pending, top.Placed text) → right.Placed text →
      Keeps text (reduceTo limit pending right) fun found =>
        (∀ top ∈ found.1, top.Placed text) ∧ found.2.Placed text
  | [], _, hpending, hright => .pure ⟨hpending, hright⟩
  | top :: rest, right, hpending, hright => by
      obtain ⟨htop, hrest⟩ := List.forall_mem_cons.mp hpending
      refine .ite ?_ (.pure ⟨hpending, hright⟩)
      have hparts : ∀ n ∈ [top.left, right.node], n.Placed text := by simp [htop.left, hright.node]
      refine (keeps_nodeFrom htop.leftToken hparts).bind fun expr hexpr => ?_
      exact places_reduceTo limit rest hrest ⟨hexpr, htop.leftToken⟩

/-- A long left operand is counted from the line on which the operand behind it ends. -/
theorem places_reduceAll : ∀ (pending : List Pending) {right : Operand},
    (∀ top ∈ pending, top.Placed text) → right.Placed text →
      Places text (reduceAll pending right)
  | [], _, _, hright => .pure hright.node
  | top :: rest, right, hpending, hright => by
      obtain ⟨htop, hrest⟩ := List.forall_mem_cons.mp hpending
      have hstart := Mark.starts_ofToken htop.leftToken _ hright.token.lineStart
      refine (keeps_node hstart (by simp [htop.left, hright.node])).bind fun expr hexpr => ?_
      exact places_reduceAll rest hrest ⟨hexpr, htop.leftToken⟩

theorem places_binaryTail (hg : g.Placed text) (fuel : Nat) :
    ∀ {pending : List Pending} {right : Operand}, (∀ top ∈ pending, top.Placed text) →
      right.Placed text → Places text (binaryTail g fuel pending right) := by
  induction fuel with
  | zero => exact fun _ _ => keeps_tooDeep
  | succ fuel ih =>
      intro pending right hpending hright
      refine keeps_ahead.bind fun t _ => keeps_context.bind fun c _ => .ite ?_ ?_
      · exact places_reduceAll pending hpending hright
      refine (places_reduceTo _ pending hpending hright).bind fun ⟨pending, left⟩ h => ?_
      obtain ⟨hpending, hleft⟩ := h
      refine keeps_advance.bind fun _ _ => keeps_notPattern.before fun _ => ?_
      refine keeps_ahead.bind fun next hnext => (places_power hg).isolate.bind fun n hn => ?_
      exact ih (List.forall_mem_cons.mpr ⟨⟨hleft.node, hleft.token⟩, hpending⟩) ⟨hn, hnext⟩

/-- Operators and their operands are placed: all that is on the stack is, from the first operand on. -/
theorem places_binary (hg : g.Placed text) : Places text (binary g) :=
  keeps_ahead.bind fun _ ht => (places_power hg).inherit.bind fun _ hfirst =>
    keeps_budget.before fun _ => places_binaryTail hg _ (by simp) ⟨hfirst, ht⟩

theorem places_conditional (hg : g.Placed text) : Places text (conditional g) := by
  refine keeps_ahead.bind fun t ht => (places_binary hg).inherit.bind fun test htest => ?_
  refine (keeps_accept _).before fun _ => .ite ?_ (.pure htest)
  refine hg.assignment.isolate.withIn.bind fun yes hyes => (keeps_expect _).before fun _ => ?_
  refine hg.assignment.isolate.bind fun no hno => ?_
  refine (keeps_nodeFrom ht (by simp [htest, hyes, hno])).bind fun n hn => ?_
  exact keeps_notPattern.before fun _ => .pure hn

/-! ## Arrow functions -/

theorem places_yieldDefault {param : Node} (h : param.Placed text) :
    Places text (yieldDefault param) := by
  unfold yieldDefault
  split
  · next role span left hasArgument rightRole rightSpan _ =>
      obtain ⟨hspan, hparts⟩ := (Node.placed_mk (by simp)).mp h
      obtain ⟨hleft, hright⟩ := List.forall_mem_cons.mp hparts
      obtain ⟨hword, -⟩ := (Node.placed_mk (by simp)).mp (hright _ List.mem_cons_self)
      -- The name stands where the word does.
      have hname : (Node.mk (.identifier "yield") rightRole rightSpan []).Placed text :=
        (Node.placed_mk (by simp)).mpr ⟨hword, by simp⟩
      refine .ite .unexpectedAhead (.pure ?_)
      exact (Node.placed_mk (by simp)).mpr ⟨hspan, by simp [hleft, hname]⟩
  · exact .pure h

theorem places_bindArrowParams (isAsync : Bool) : ∀ (params : List Node) {ps : Parameters},
    (∀ n ∈ params, n.Placed text) → ps.Placed text →
      Keeps text (bindArrowParams isAsync params ps) (Parameters.Placed text)
  | [], _, _, hps => .pure hps
  | param :: rest, ps, hparams, hps => by
      obtain ⟨hparam, hrest⟩ := List.forall_mem_cons.mp hparams
      refine (places_yieldDefault hparam).bind fun param hparam => ?_
      have hnext : Keeps text (do
          let strict ← strict
          let ps := (boundNames param).foldl (fun ps name => ps.bind strict ⟨none⟩ name) ps
          bindArrowParams isAsync rest { ps with
            simple := ps.simple && param.isIdentifier
            reversed := param.withRole .param :: ps.reversed }) (Parameters.Placed text) := by
        refine keeps_strict.before fun strict => places_bindArrowParams isAsync rest hrest ?_
        refine .concat (hps.foldl fun ps hps name _ => hps.bind ?_ strict name) hparam _
        simp [Culprit.Placed]
      refine .ite ?_ hnext
      exact .unexpectedAhead

/-- What was read as an expression in front of an arrow is bound as parameters, and these are placed. -/
theorem places_arrowParams {expr : Node} (h : expr.Placed text) :
    Keeps text (arrowParams expr) fun found => ∀ head ∈ found, head.1.Placed text := by
  have hparams : ∀ (refused : Node → Bool) (params : List Node) (isAsync : Bool),
      (∀ n ∈ params, n.Placed text) → Keeps text (do
        let ps ← bindArrowParams isAsync params {}
        let c ← context
        if (c.strict || !c.allowYield) && ps.list.any refused then unexpected (← ahead)
        if ps.fault = some .strictDuplicateParameter then failBehind .strictDuplicateParameter
        return some (ps, isAsync)) fun found => ∀ head ∈ found, head.1.Placed text := by
    intro refused params isAsync hparams
    refine (places_bindArrowParams isAsync params hparams ⟨by simp, by simp, by simp⟩).bind
      fun ps hps => keeps_context.bind fun c _ => .ite ?_ ?_
    · exact .unexpectedAhead
    · exact .unless (keeps_failBehind _) (.pure (by simpa using hps))
  unfold arrowParams
  split
  · exact hparams _ _ _ (by simpa using h)
  · exact hparams _ _ _ h.parts
  · exact .pure (by simp)

theorem places_arrowBody {ps : Parameters} (hps : ps.Placed text) {p : Parse (Node × Bool)}
    (hp : Keeps text p fun found => found.1.Placed text) :
    Keeps text (arrow.bodyOf' ps p) fun found => found.1.Placed text :=
  .withStrictness (.before (keeps_adjust fun _ => rfl) fun _ => hp.bind fun _ hbody =>
    (keeps_checkStrictParameters hps _).before fun _ => .pure hbody)

/-- An arrow function starts at the token at which its parameters do. -/
theorem places_arrow (hg : g.Placed text) {t : Token} (ht : t.Stands text) {ps : Parameters}
    (hps : ps.Placed text) (isAsync : Bool) : Places text (arrow g t ps isAsync) := by
  refine keeps_lineBreak.before fun _ => .ite ?_ ?_
  · exact .unexpectedAhead
  refine .before (keeps_forget fun _ => rfl) fun _ => ?_
  refine .withSuspension ((places_arrowBody hps ?_).bind fun found hbody => ?_)
  · refine (keeps_expect _).before fun _ => (keeps_sees _).before fun _ => .ite ?_ ?_
    · exact (places_functionBody hg).withIn.bind fun body hbody => .pure hbody
    · exact hg.assignment.isolate.bind fun body hbody => .pure hbody
  · exact keeps_nodeFrom ht (List.forall_mem_append.mpr ⟨hps.list, by simpa using hbody⟩)

/-! ## Assignments -/

theorem keeps_seesExpressionStart : Keeps text seesExpressionStart fun _ => True := by
  refine keeps_ahead.bind fun t _ => ?_
  split <;> exact .pure trivial

theorem places_yieldExpression (hg : g.Placed text) : Places text (yieldExpression g) := by
  refine keeps_here.bind fun start hstart => (keeps_expectKeyword _).before fun _ => ?_
  refine keeps_lineBreak.before fun _ => .ite (keeps_leaf hstart) ?_
  have hsome : Keeps text (do pure (some (← g.assignment)))
      fun found => ∀ n ∈ found, Node.Placed text n := hg.assignment.bind fun n hn => .pure (by simpa)
  refine (Keeps.keepingYield (R := fun found => ∀ n ∈ found, Node.Placed text n) ?_).bind
    fun argument hargument => keeps_node hstart (by simpa using hargument)
  refine (keeps_setYield _).before fun _ => (keeps_accept _).before fun _ => .ite hsome ?_
  exact keeps_seesExpressionStart.before fun _ => .ite hsome (.pure (by simp))

theorem places_asyncArrowParam (hg : g.Placed text) (t : Token) {expr : Node}
    (hexpr : expr.Placed text) : Places text (asyncArrowParam g t expr) := by
  refine keeps_ahead.bind fun next _ => .ite ?_ (.pure hexpr)
  refine (places_primary hg).bind fun param hparam => .pure (Node.placed_arrowHead ?_)
  simpa using placed_asPattern hparam

theorem places_assignmentTail (hg : g.Placed text) {t : Token} (ht : t.Stands text) {target : Node}
    (htarget : target.Placed text) : Places text (assignmentTail g t target) := by
  refine keeps_context.bind fun c _ => .unless (keeps_failAhead _) ?_
  have hleft : ∀ plain : Bool, (if plain then asPattern target else target).Placed text := by
    intro plain
    split
    · exact placed_asPattern htarget
    · exact htarget
  have hrest : Places text (do
      let plain ← sees "="
      if !plain then notPattern
      let left := if plain then asPattern target else target
      let token ← advance
      let right ← isolate g.assignment
      let result ← nodeFrom t (.assignment token.lexeme.text) [left, right]
      modifyContext fun c => { c with pendingDefault := none }
      return result) := by
    refine (keeps_sees _).before fun plain => ?_
    have hnode : Places text (do
        let token ← advance
        let right ← isolate g.assignment
        let result ← nodeFrom t (.assignment token.lexeme.text)
          [if plain then asPattern target else target, right]
        modifyContext fun c => { c with pendingDefault := none }
        return result) := by
      refine keeps_advance.bind fun _ _ => hg.assignment.isolate.bind fun right hright => ?_
      refine (keeps_nodeFrom ht (by simp [hleft, hright])).bind fun n hn => ?_
      exact .before (keeps_forget fun _ => rfl) fun _ => .pure hn
    exact .ite (keeps_notPattern.before fun _ => hnode) hnode
  refine keeps_strict.before fun _ => .ite ?_ hrest
  split
  · exact .unless (keeps_failAt ht _) (.unless (keeps_failAt ht _) hrest)
  · exact hrest

/-- An assignment is placed, as are the expressions, arrow functions and patterns that it may be. -/
theorem places_assignment (hg : g.Placed text) : Places text (assignment g) := by
  refine keeps_context.bind fun c _ => (keeps_seesKeyword _).before fun _ => ?_
  refine .ite (places_yieldExpression hg) (keeps_ahead.bind fun t ht => ?_)
  refine (places_conditional hg).bind fun expr hexpr => ?_
  refine (places_asyncArrowParam hg t hexpr).bind fun expr hexpr => ?_
  refine (keeps_sees _).before fun _ => .ite (keeps_notPattern.before fun _ => ?_) ?_
  · refine (places_arrowParams hexpr).bind fun found hfound => ?_
    split
    · next ps isAsync => exact places_arrow hg ht (hfound (ps, isAsync) rfl) isAsync
    · exact .pure hexpr
  · refine keeps_seesAssignment.before fun _ => .ite ?_ (.pure hexpr)
    exact places_assignmentTail hg ht hexpr

end EditionSurvey.Script.Grammar
