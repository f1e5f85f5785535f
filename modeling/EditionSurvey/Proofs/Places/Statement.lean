/-
  Proofs/Places/Statement.lean --- statements and whole scripts are placed.

  Levels of productions are placed by induction on the number of levels below them.  The state before
  the first token knows no places yet; behind it, the program begins in a state that does.
-/
import EditionSurvey.Proofs.Places.Expression

set_option autoImplicit false

namespace EditionSurvey.Script

namespace Grammar

variable {text : List Char} {g : Productions}

/-! ## Blocks and variables -/

/-- The statements of a block are placed, and the block starts at its brace. -/
theorem places_block (hg : g.Placed text) : Places text (block g) := by
  refine keeps_here.bind fun start hstart => (keeps_expect _).before fun _ => ?_
  refine (Keeps.many (R := Node.Placed text) ?_).bind fun items hitems => ?_
  · exact (keeps_sees _).before fun _ => .ite (.pure (by simp)) (places_someItem hg)
  · exact (keeps_expect _).before fun _ => keeps_node hstart hitems

theorem places_parenthesisedExpression (hg : g.Placed text) :
    Places text (parenthesisedExpression g) :=
  (keeps_expect _).before fun _ => (places_expression hg).bind fun _ hn =>
    (keeps_expect _).before fun _ => .pure hn

theorem keeps_checkVariableName (target : Node) (fault : Fault) :
    Keeps text (checkVariableName target fault) fun _ => True :=
  keeps_strict.before fun _ => .ite (keeps_failAhead _) (.pure trivial)

theorem places_separated {item : Parse Node} (hitem : Places text item) :
    Keeps text (separated item) fun list => ∀ n ∈ list, n.Placed text :=
  hitem.bind fun _ hfirst => hitem.commas.bind fun _ hrest =>
    .pure (List.forall_mem_cons.mpr ⟨hfirst, hrest⟩)

/-- A declarator with the value behind its target. -/
theorem places_initialised (hg : g.Placed text) {start : Mark} (hstart : start.Starts text)
    {target : Node} (htarget : target.Placed text) : Places text (do
      let init ← isolate g.assignment
      node start (.declarator true) [target, init]) :=
  hg.assignment.isolate.bind fun init hinit => keeps_node hstart (by simp [htarget, hinit])

theorem places_variableDeclarator (hg : g.Placed text) (inFor : Bool) :
    Places text (variableDeclarator g inFor) := by
  refine keeps_here.bind fun start hstart => (hg.binding _).bind fun ⟨target, _⟩ hbound => ?_
  refine (keeps_checkVariableName _ _).before fun _ => (keeps_accept _).before fun _ => ?_
  have hnode : Places text (node start (.declarator false) [target]) :=
    keeps_node hstart (by simpa using hbound.1)
  refine .ite (places_initialised hg hstart hbound.1) (.ite ?_ hnode)
  exact (keeps_expect _).before fun _ => hnode

/-- A name that a block declares is placed, with its value or without one.  A constant may lack it in
the head of a loop that gives it one; in other heads that is reported behind the name. -/
theorem places_lexicalDeclarator (hg : g.Placed text) (kind : String) (inFor : Bool) :
    Places text (lexicalDeclarator g kind inFor) := by
  refine keeps_here.bind fun start hstart => (hg.binding _).bind fun ⟨target, _⟩ hbound => ?_
  refine (keeps_checkVariableName _ _).before fun _ => ?_
  have hnode : Places text (node start (.declarator false) [target]) :=
    keeps_node hstart (by simpa using hbound.1)
  have hvalue := places_initialised hg hstart hbound.1
  refine .ite ?_ ((keeps_sees _).before fun _ => .ite ?_ hnode)
  · refine (keeps_seesKeyword _).before fun _ => (keeps_seesName _).before fun _ => .ite hnode ?_
    exact (keeps_accept _).before fun _ => .ite hvalue (keeps_failBehind _)
  · exact (keeps_expect _).before fun _ => hvalue

/-- The variables of a statement are placed, each from its own token on. -/
theorem places_variableStatement (hg : g.Placed text) : Places text (variableStatement g) := by
  refine keeps_here.bind fun start hstart => (keeps_expectKeyword _).before fun _ => ?_
  refine (places_separated (places_variableDeclarator hg _)).bind fun list hlist => ?_
  exact keeps_endStatement.before fun _ => keeps_node hstart hlist

theorem places_lexicalDeclaration (hg : g.Placed text) : Places text (lexicalDeclaration g) := by
  refine keeps_here.bind fun start hstart => keeps_advance.bind fun _ _ => ?_
  refine (places_separated (places_lexicalDeclarator hg _ _)).bind fun list hlist => ?_
  exact keeps_endStatement.before fun _ => keeps_node hstart hlist

theorem keeps_letDeclares : Keeps text letDeclares fun _ => True := by
  refine keeps_peekBeyond.before fun t => ?_
  split <;> exact .pure trivial

/-! ## Choices and loops -/

theorem places_guarded (hg : g.Placed text) : Places text (guarded g) :=
  keeps_strict.before fun _ => (keeps_seesKeyword _).before fun _ =>
    .unless (keeps_failAhead _) hg.statement

theorem places_ifStatement (hg : g.Placed text) : Places text (ifStatement g) := by
  refine keeps_here.bind fun start hstart => (keeps_expectKeyword _).before fun _ => ?_
  refine (places_parenthesisedExpression hg).bind fun test htest => ?_
  refine (places_guarded hg).bind fun yes hyes => (keeps_seesKeyword _).before fun _ => .ite ?_ ?_
  · refine keeps_advance.bind fun _ _ => (places_guarded hg).bind fun no hno => ?_
    exact keeps_node hstart (by simp [htest, hyes, hno])
  · exact keeps_node hstart (by simp [htest, hyes])

theorem places_doWhileLoop (hg : g.Placed text) : Places text (doWhileLoop g) := by
  refine keeps_here.bind fun start hstart => (keeps_expectKeyword _).before fun _ => ?_
  refine hg.statement.withLoop.bind fun body hbody => (keeps_expectKeyword _).before fun _ => ?_
  refine (places_parenthesisedExpression hg).bind fun test htest => ?_
  exact (keeps_accept _).before fun _ => keeps_node hstart (by simp [hbody, htest])

theorem places_whileLoop (hg : g.Placed text) : Places text (whileLoop g) := by
  refine keeps_here.bind fun start hstart => (keeps_expectKeyword _).before fun _ => ?_
  refine (places_parenthesisedExpression hg).bind fun test htest => ?_
  exact hg.statement.withLoop.bind fun body hbody => keeps_node hstart (by simp [htest, hbody])

/-- The parts of the head of a loop are placed. -/
def ForHead.Placed (text : List Char) : ForHead → Prop
  | .steps parts => ∀ n ∈ parts, n.Placed text
  | .keys target object => target.Placed text ∧ object.Placed text
  | .values target collection => target.Placed text ∧ collection.Placed text

theorem places_loopSteps (hg : g.Placed text) {init : List Node} (hinit : ∀ n ∈ init, n.Placed text) :
    Keeps text (loopSteps g init) (ForHead.Placed text) := by
  have hlast : ∀ test : List Node, (∀ n ∈ test, n.Placed text) → Keeps text (do
      expect ";"
      let update ← if ← sees ")" then pure [] else pure [← expression g]
      return .steps (init ++ test ++ update)) (ForHead.Placed text) := by
    intro test htest
    refine (keeps_expect _).before fun _ => (keeps_sees _).before fun _ => .ite (.pure ?_) ?_
    · simpa [ForHead.Placed, or_imp, forall_and] using ⟨hinit, htest⟩
    · refine (places_expression hg).bind fun update hupdate => .pure ?_
      simpa [ForHead.Placed, or_imp, forall_and, hupdate] using ⟨hinit, htest⟩
  refine (keeps_sees _).before fun _ => .ite (hlast [] (by simp)) ?_
  exact (places_expression hg).bind fun test htest => hlast [test] (by simpa using htest)

theorem places_loopKeys (hg : g.Placed text) {target : Node} (htarget : target.Placed text) :
    Keeps text (loopKeys g target) (ForHead.Placed text) :=
  keeps_advance.bind fun _ _ => (places_expression hg).bind fun _ hobject => .pure ⟨htarget, hobject⟩

theorem places_loopValues (hg : g.Placed text) {target : Node} (htarget : target.Placed text) :
    Keeps text (loopValues g target) (ForHead.Placed text) :=
  keeps_advance.bind fun _ _ => hg.assignment.bind fun _ hlist => .pure ⟨htarget, hlist⟩

theorem places_varHead (hg : g.Placed text) : Keeps text (varHead g) (ForHead.Placed text) := by
  refine keeps_here.bind fun start hstart => keeps_advance.bind fun _ _ => ?_
  refine (places_separated (places_variableDeclarator hg _)).withIn.bind fun list hlist => ?_
  have hnode : Places text (node start (.variables "var") list) := keeps_node hstart hlist
  have hsteps : Keeps text (varHead.steps g start list) (ForHead.Placed text) :=
    hnode.bind fun init hinit => (keeps_expect _).before fun _ =>
      places_loopSteps hg (by simpa using hinit)
  split
  · refine (keeps_seesKeyword _).before fun _ => .ite (keeps_strict.before fun _ => ?_) ?_
    · exact .unless (keeps_failAhead _) (hnode.bind fun n hn => places_loopKeys hg hn)
    refine (keeps_seesName _).before fun _ => .ite ?_ hsteps
    exact hnode.bind fun n hn => places_loopValues hg hn
  · exact hsteps

theorem places_lexicalHead (hg : g.Placed text) : Keeps text (lexicalHead g) (ForHead.Placed text) := by
  refine keeps_here.bind fun start hstart => keeps_advance.bind fun t _ => ?_
  refine keeps_strict.before fun _ => keeps_ahead.bind fun _ _ => .ite ?_ ?_
  · exact (keeps_leaf hstart).bind fun n hn => places_loopKeys hg hn
  refine (places_separated (places_lexicalDeclarator hg _ _)).withIn.bind fun list hlist => ?_
  have hnode : Places text (node start (.variables t.lexeme.text) list) := keeps_node hstart hlist
  have hsteps : Keeps text (lexicalHead.steps g start t.lexeme.text list) (ForHead.Placed text) :=
    keeps_endStatement.before fun _ => hnode.bind fun init hinit =>
      places_loopSteps hg (by simpa using hinit)
  split
  · refine (keeps_seesKeyword _).before fun _ => .ite ?_ ?_
    · exact hnode.bind fun n hn => places_loopKeys hg hn
    refine (keeps_seesName _).before fun _ => .ite ?_ hsteps
    exact hnode.bind fun n hn => places_loopValues hg hn
  · exact hsteps

theorem keeps_checkLoopTarget (target : Node) (fault : Fault) :
    Keeps text (checkLoopTarget target fault) fun _ => True :=
  keeps_context.bind fun _ _ => .ite (keeps_failAhead _) (.pure trivial)

theorem places_expressionHead (hg : g.Placed text) :
    Keeps text (expressionHead g) (ForHead.Placed text) := by
  refine keeps_ahead.bind fun t ht => hg.assignment.inherit.withIn.bind fun init hinit => ?_
  refine (keeps_seesKeyword _).before fun _ => .ite ?_ ?_
  · refine (keeps_checkLoopTarget _ _).before fun _ => ?_
    exact places_loopKeys hg (placed_asPattern hinit)
  refine (keeps_seesName _).before fun _ => .ite ?_ ?_
  · refine (keeps_checkLoopTarget _ _).before fun _ => ?_
    exact places_loopValues hg (placed_asPattern hinit)
  have hsteps : ∀ init : Node, init.Placed text → Keeps text (do
      expect ";"
      loopSteps g [init]) (ForHead.Placed text) := fun init hinit =>
    (keeps_expect _).before fun _ => places_loopSteps hg (by simpa using hinit)
  refine (keeps_sees _).before fun _ => .ite ?_ (hsteps init hinit)
  refine hg.assignment.isolate.commas.bind fun rest hrest => ?_
  exact (keeps_nodeFrom ht (List.forall_mem_cons.mpr ⟨hinit, hrest⟩)).bind hsteps

/-- A loop is placed, whichever of the three kinds of heads its first part turns out to be. -/
theorem places_forLoop (hg : g.Placed text) : Places text (forLoop g) := by
  refine keeps_here.bind fun start hstart => (keeps_expectKeyword _).before fun _ => ?_
  have hloop : ∀ head : ForHead, head.Placed text → Places text (do
      expect ")"
      let body ← withLoop (isolate g.statement)
      let body := body.withRole .body
      match head with
      | .steps parts => node start .forLoop (parts ++ [body])
      | .keys target object => node start .forInLoop [target, object, body]
      | .values target collection => node start .forOfLoop [target, collection, body]) := by
    intro head hhead
    refine (keeps_expect _).before fun _ => hg.statement.isolate.withLoop.bind fun body hbody => ?_
    cases head with
    | steps parts =>
        exact keeps_node hstart (List.forall_mem_append.mpr ⟨hhead, by simpa using hbody⟩)
    | keys target object => exact keeps_node hstart (by simp [hhead.1, hhead.2, hbody])
    | values target collection => exact keeps_node hstart (by simp [hhead.1, hhead.2, hbody])
  refine (keeps_expect _).before fun _ => (keeps_accept _).before fun _ => ?_
  refine (keeps_seesKeyword _).before fun _ => (keeps_seesKeyword _).before fun _ => ?_
  refine (keeps_seesKeyword _).before fun _ => .ite ((places_loopSteps hg (by simp)).bind hloop) ?_
  refine .ite ((places_varHead hg).bind hloop) (.ite ?_ ?_)
  · exact (places_lexicalHead hg).bind hloop
  · exact (places_expressionHead hg).bind hloop

/-! ## Jumps and labels -/

theorem places_jumpLabel : Keeps text jumpLabel fun found => ∀ n ∈ found, n.Placed text := by
  refine keeps_ahead.bind fun _ _ => keeps_lineBreak.before fun _ => .ite (.pure (by simp)) ?_
  refine (places_bindingName none).bind fun id hid => keeps_context.bind fun c _ => ?_
  exact .unless (keeps_failBehind _) (.pure (by simpa using hid))

theorem places_breakStatement : Places text breakStatement := by
  refine keeps_here.bind fun start hstart => (keeps_expectKeyword _).before fun _ => ?_
  refine places_jumpLabel.bind fun label hlabel => keeps_endStatement.before fun _ => ?_
  refine keeps_context.bind fun c _ => .unless (keeps_failBehind _) ?_
  exact keeps_node hstart (by simpa using hlabel)

theorem places_continueStatement : Places text continueStatement := by
  refine keeps_here.bind fun start hstart => (keeps_expectKeyword _).before fun _ => ?_
  refine places_jumpLabel.bind fun label hlabel => keeps_endStatement.before fun _ => ?_
  refine keeps_context.bind fun c _ => .unless (keeps_failBehind _) ?_
  exact keeps_node hstart (by simpa using hlabel)

theorem places_returnStatement (hg : g.Placed text) : Places text (returnStatement g) := by
  refine keeps_context.bind fun c _ => .unless (keeps_failAhead _) ?_
  refine keeps_here.bind fun start hstart => (keeps_expectKeyword _).before fun _ => ?_
  have hnode : ∀ argument : List Node, (∀ n ∈ argument, n.Placed text) → Places text (do
      endStatement
      node start .returnStatement argument) := fun argument hargument =>
    keeps_endStatement.before fun _ => keeps_node hstart hargument
  refine (keeps_sees _).before fun _ => (keeps_sees _).before fun _ => ?_
  refine keeps_lineBreak.before fun _ => keeps_seesEnd.before fun _ => ?_
  refine keeps_ahead.bind fun _ _ => .ite ?_ (hnode [] (by simp))
  exact (places_expression hg).bind fun n hn => hnode [n] (by simpa using hn)

theorem places_throwStatement (hg : g.Placed text) : Places text (throwStatement g) := by
  refine keeps_here.bind fun start hstart => (keeps_expectKeyword _).before fun _ => ?_
  refine keeps_lineBreak.before fun _ => .unless (keeps_failBehind _) ?_
  refine (places_expression hg).bind fun n hn => keeps_endStatement.before fun _ => ?_
  exact keeps_node hstart (by simpa using hn)

/-- A statement that starts with a name is placed, be the name a label or an expression. -/
theorem places_labelled (hg : g.Placed text) : Places text (labelled g) := by
  refine keeps_here.bind fun start hstart => (places_expression hg).bind fun expr hexpr => ?_
  refine (keeps_sees _).before fun _ => ?_
  split
  · next name _ =>
      refine keeps_advance.bind fun _ _ => keeps_context.bind fun c _ => ?_
      refine .unless (keeps_failBehind _) (.before (keeps_adjust fun _ => rfl) fun _ => ?_)
      have hnode : ∀ body : Node, body.Placed text → Places text (do
          modifyContext fun c => { c with labels := c.labels.erase name }
          node start .labeled [expr, body.withRole .body]) := fun body hbody =>
        .before (keeps_adjust fun _ => rfl) fun _ => keeps_node hstart (by simp [hexpr, hbody])
      refine (keeps_seesKeyword _).before fun _ => (keeps_seesKeyword _).before fun _ => .ite ?_ ?_
      · exact .unexpectedAhead
      refine .ite ?_ (hg.statement.bind hnode)
      refine keeps_ahead.bind fun t ht => (places_functionDeclaration hg).bind fun n hn => ?_
      refine keeps_strict.before fun _ => .unless (keeps_failAt ht _) ?_
      exact .unless (keeps_failAt ht _) (hnode n hn)
  · exact keeps_endStatement.before fun _ => keeps_node hstart (by simpa using hexpr)

/-! ## Other statements -/

theorem places_withStatement (hg : g.Placed text) : Places text (withStatement g) := by
  refine keeps_strict.before fun _ => .unless (keeps_failAhead _) ?_
  refine keeps_here.bind fun start hstart => (keeps_expectKeyword _).before fun _ => ?_
  refine (places_parenthesisedExpression hg).bind fun object hobject => ?_
  exact hg.statement.bind fun body hbody => keeps_node hstart (by simp [hobject, hbody])

theorem places_switchCase (hg : g.Placed text) : Places text (switchCase g) := by
  refine keeps_here.bind fun start hstart => (keeps_seesKeyword _).before fun _ => ?_
  have hnode : ∀ test : List Node, (∀ n ∈ test, n.Placed text) → Places text (do
      expect ":"
      let items ← many do
        if (← sees "\x7d") || (← seesKeyword "default") || (← seesKeyword "case") then return none
        return some (← g.item)
      node start (.switchCase test.isEmpty) (test ++ items)) := by
    intro test htest
    refine (keeps_expect _).before fun _ => (Keeps.many (R := Node.Placed text) ?_).bind
      fun items hitems => keeps_node hstart (List.forall_mem_append.mpr ⟨htest, hitems⟩)
    refine (keeps_sees _).before fun _ => (keeps_seesKeyword _).before fun _ => ?_
    exact (keeps_seesKeyword _).before fun _ => .ite (.pure (by simp)) (places_someItem hg)
  refine .ite (keeps_advance.bind fun _ _ => hnode [] (by simp)) ?_
  refine (keeps_expectKeyword _).before fun _ => (places_expression hg).bind fun test htest => ?_
  exact hnode [test] (by simpa using htest)

theorem places_switchCases (hg : g.Placed text) (fuel : Nat) :
    ∀ {hasDefault : Bool} {reversed : List Node}, (∀ n ∈ reversed, n.Placed text) →
      Keeps text (switchCases g fuel hasDefault reversed) fun list => ∀ n ∈ list, n.Placed text := by
  induction fuel with
  | zero => exact fun _ => keeps_tooDeep
  | succ fuel ih =>
      intro hasDefault reversed h
      refine (keeps_sees _).before fun _ => .ite ?_ ?_
      · exact .pure fun n hn => h n (List.mem_reverse.mp hn)
      · refine (places_switchCase hg).bind fun clause hclause => .unless (keeps_failBehind _) ?_
        exact ih (List.forall_mem_cons.mpr ⟨hclause, h⟩)

/-- The clauses of a choice are placed.  A second default is reported behind the clause. -/
theorem places_switchStatement (hg : g.Placed text) : Places text (switchStatement g) := by
  refine keeps_here.bind fun start hstart => (keeps_expectKeyword _).before fun _ => ?_
  refine (places_parenthesisedExpression hg).bind fun subject hsubject => ?_
  refine (keeps_expect _).before fun _ => keeps_context.bind fun c _ => ?_
  refine .before (keeps_adjust fun _ => rfl) fun _ => keeps_budget.before fun _ => ?_
  refine (places_switchCases hg _ (by simp)).bind fun cases hcases => ?_
  refine .before (keeps_adjust fun _ => rfl) fun _ => (keeps_expect _).before fun _ => ?_
  exact keeps_node hstart (List.forall_mem_cons.mpr ⟨hsubject, hcases⟩)

theorem places_catchClause (hg : g.Placed text) : Places text (catchClause g) := by
  refine keeps_here.bind fun start hstart => (keeps_expectKeyword _).before fun _ => ?_
  refine (keeps_expect _).before fun _ => (keeps_sees _).before fun _ => .ite ?_ ?_
  · exact .unexpectedAhead
  refine (hg.binding none).bind fun ⟨param, tokens⟩ hbound => ?_
  dsimp only
  split
  · exact .fails (keeps_failAhead _)
  refine (keeps_checkVariableName _ _).before fun _ => (keeps_expect _).before fun _ => ?_
  exact (places_block hg).bind fun body hbody => keeps_node hstart (by simp [hbound.1, hbody])

/-- A guarded block is placed with the clauses behind it, and a block without any is reported behind it. -/
theorem places_tryStatement (hg : g.Placed text) : Places text (tryStatement g) := by
  refine keeps_here.bind fun start hstart => (keeps_expectKeyword _).before fun _ => ?_
  refine (places_block hg).bind fun body hbody => (keeps_seesKeyword _).before fun _ => ?_
  have hnode : ∀ handler finalizer : List Node, (∀ n ∈ handler, n.Placed text) →
      (∀ n ∈ finalizer, n.Placed text) → Places text (do
        if handler.isEmpty && finalizer.isEmpty then failBehind .missingCatchOrFinally
        node start .tryStatement (body :: handler ++ finalizer)) := by
    intro handler finalizer hhandler hfinalizer
    refine .unless (keeps_failBehind _) (keeps_node hstart ?_)
    simpa [or_imp, forall_and, hbody] using ⟨hhandler, hfinalizer⟩
  have hfinally : ∀ handler : List Node, (∀ n ∈ handler, n.Placed text) → Places text (do
      let finalizer ←
        if ← seesKeyword "finally" then
          let _ ← advance
          pure [← block g]
        else pure []
      if handler.isEmpty && finalizer.isEmpty then failBehind .missingCatchOrFinally
      node start .tryStatement (body :: handler ++ finalizer)) := by
    intro handler hhandler
    refine (keeps_seesKeyword _).before fun _ => .ite ?_ (hnode handler [] hhandler (by simp))
    refine keeps_advance.bind fun _ _ => (places_block hg).bind fun n hn => ?_
    exact hnode handler [n] hhandler (by simpa using hn)
  refine .ite ?_ (hfinally [] (by simp))
  exact (places_catchClause hg).bind fun n hn => hfinally [n] (by simpa using hn)

theorem places_debuggerStatement : Places text debuggerStatement := by
  refine keeps_here.bind fun start hstart => (keeps_expectKeyword _).before fun _ => ?_
  exact keeps_endStatement.before fun _ => keeps_leaf hstart

theorem places_expressionStatement (hg : g.Placed text) : Places text (expressionStatement g) := by
  refine keeps_here.bind fun start hstart => (places_expression hg).bind fun expr hexpr => ?_
  exact keeps_endStatement.before fun _ => keeps_node hstart (by simpa using hexpr)

theorem places_keywordStatement (hg : g.Placed text) (word : String) :
    Places text (keywordStatement g word) := by
  unfold keywordStatement
  split
  · exact places_breakStatement
  · exact places_continueStatement
  · exact places_debuggerStatement
  · exact places_doWhileLoop hg
  · exact places_forLoop hg
  · exact places_functionDeclaration hg
  · exact places_ifStatement hg
  · exact places_returnStatement hg
  · exact places_switchStatement hg
  · exact places_throwStatement hg
  · exact places_tryStatement hg
  · exact places_variableStatement hg
  · exact places_whileLoop hg
  · exact places_withStatement hg
  · exact places_expressionStatement hg

/-- Statements are told apart by the token ahead, and each kind is placed. -/
theorem places_statement (hg : g.Placed text) : Places text (statement g) := by
  refine keeps_here.bind fun start hstart => keeps_ahead.bind fun t ht => ?_
  split
  · exact keeps_unexpected ht
  · exact places_block hg
  · exact keeps_advance.bind fun _ _ => keeps_leaf hstart
  · refine keeps_seesAsyncFunction.before fun _ => ?_
    exact .ite (places_functionDeclaration hg) (places_labelled hg)
  · exact places_keywordStatement hg _
  · exact places_expressionStatement hg

theorem places_item (hg : g.Placed text) : Places text (item g) := by
  refine .before (keeps_adjust fun _ => rfl) fun _ => keeps_ahead.bind fun t ht => ?_
  split
  · exact keeps_failAt ht _
  · refine keeps_seesImportCall.before fun _ => ?_
    exact .ite (places_expressionStatement hg) (keeps_failAt ht _)
  · exact places_lexicalDeclaration hg
  · exact places_functionDeclaration hg
  · exact places_classDeclaration hg
  · refine keeps_letDeclares.before fun _ => ?_
    exact .ite (places_lexicalDeclaration hg) (places_statement hg)
  · exact places_statement hg

/-! ## Scripts -/

theorem placed_none : Productions.none.Placed text where
  assignment := keeps_tooDeep
  unary := keeps_tooDeep
  power := keeps_tooDeep
  callee := keeps_tooDeep
  operand := keeps_tooDeep
  binding _ := keeps_tooDeep
  statement := keeps_tooDeep
  item := keeps_tooDeep

/-- A level of productions over one that is placed is placed. -/
theorem Productions.Placed.above (hg : g.Placed text) : g.above.Placed text where
  assignment := places_assignment hg
  unary := places_unary hg
  power := places_power hg
  callee := places_callee hg
  operand := places_operand hg
  binding := places_binding hg
  statement := places_statement hg
  item := places_item hg

/-- The productions of every level are placed, by induction on the number of levels below. -/
theorem placed_productions (levels : Nat) : (productions levels).Placed text := by
  induction levels with
  | zero => exact placed_none
  | succ levels ih => exact ih.above

/-- A whole script is placed, with its directives. -/
theorem places_program (hg : g.Placed text) : Places text (program g) := by
  refine keeps_here.bind fun start hstart => (places_directivePrologue hg).bind fun prologue h => ?_
  refine (Keeps.many (R := Node.Placed text) ?_).bind fun items hitems =>
    keeps_node hstart (List.forall_mem_append.mpr ⟨h, hitems⟩)
  exact keeps_seesEnd.before fun _ => .ite (.pure (by simp)) (places_someItem hg)

end Grammar

end EditionSurvey.Script
