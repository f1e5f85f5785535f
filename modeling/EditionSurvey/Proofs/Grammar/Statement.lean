/-
  Proofs/Grammar/Statement.lean --- what the productions for statements and declarations add.
-/
import EditionSurvey.Script.Grammar.Statement
import EditionSurvey.Proofs.Grammar.Expression

set_option autoImplicit false

namespace EditionSurvey.Script.Grammar

variable {source : List Char} {r later : Reading} {ns : List Node} {g : Productions}

/-! ## Blocks and variables -/

theorem adds_block (hg : g.Sound source) : Adds source (block g) := by
  intro r ns h
  unfold block
  refine .here_bind fun start _ => h.expect_bind (by decide) fun next _ h => ?_
  refine (gives_items ?_ h).bind fun items mid _ h => ?_
  · intro r ns h
    refine .sees_bind (fun _ => .pure h) fun _ => ?_
    exact (hg.item h).bind fun n later _ h => .pure h
  · exact h.expect_bind (by decide) fun next _ h => h.gives_plain (fun _ => Iff.rfl) rfl

theorem adds_parenthesisedExpression (hg : g.Sound source) :
    Adds source (parenthesisedExpression g) := by
  intro r ns h
  unfold parenthesisedExpression
  refine h.expect_bind (by decide) fun next _ h => ?_
  refine (adds_expression hg h).bind fun expr mid _ ⟨h, _, _⟩ => ?_
  exact h.expect_bind (by decide) fun next _ h => .pure h

theorem still_checkVariableName (target : Node) (fault : Fault) :
    Still (checkVariableName target fault) := by
  refine still_strict.bind fun strict => ?_
  split
  · exact (fails_failAhead _).still
  · exact still_pure _

/-- Items stand behind the word of a declaration or a comma. -/
theorem gives_separated {p : Parse Node} {word : Lexeme}
    (hp : ∀ {r ns}, Accounted source r ns →
      r.lexemes.getLast? = some word ∨ r.lexemes.getLast? = some (.punctuator ",") →
      Gives source p r fun n later => Accounted source later (n :: ns))
    (h : Accounted source r ns) (hword : r.lexemes.getLast? = some word) :
    Gives source (separated p) r fun list later => Accounted source later (list ++ ns) := by
  unfold separated
  refine (hp h (.inl hword)).bind fun first mid _ h => ?_
  refine (gives_commas (E := fun _ _ => True)
    (fun h hcomma => (hp h (.inr hcomma)).mono fun _ _ _ h => ⟨h, trivial⟩) h trivial).bind
      fun rest later _ ⟨h, _⟩ => ?_
  exact .pure (h.regroup (by simp [SameTrees, or_left_comm]))

/-- A declarator with a value, behind its sign. -/
theorem gives_initialized (hg : g.Sound source) {start : Mark} {target : Node}
    (h : Accounted source r (target :: ns)) :
    Gives source (do
      let init ← isolate g.assignment
      node start (.declarator true) [target, init]) r fun n later =>
        Accounted source later (n :: ns) :=
  (hg.assignment h).isolate.bind fun _ _ _ ⟨h, _, _⟩ =>
    h.gives_plain (by simp [SameTrees, or_left_comm]) rfl

theorem gives_variableDeclarator (hg : g.Sound source) (inFor : Bool) (h : Accounted source r ns)
    (hbehind : r.lexemes.getLast? = some (.keyword "var") ∨
      r.lexemes.getLast? = some (.punctuator ",")) :
    Gives source (variableDeclarator g inFor) r fun n later => Accounted source later (n :: ns) := by
  unfold variableDeclarator
  refine .here_bind fun start _ => ?_
  refine (hg.binding _ h fun _ => .inl hbehind).bind fun bound mid _ ⟨h, _⟩ => ?_
  refine .after_still (still_checkVariableName _ _) fun _ => ?_
  refine h.accept_bind (by decide) (fun next _ h => gives_initialized hg h) fun hno => ?_
  rw [if_neg Bool.false_ne_true]
  split
  · exact .expect_bind fun next hyes => absurd hyes hno
  · exact h.gives_plain (by simp [SameTrees]) rfl

theorem adds_lexicalDeclarator (hg : g.Sound source) {kind : String} (hkind : kind ≠ "var")
    (inFor : Bool) : Adds source (lexicalDeclarator g kind inFor) := by
  intro r ns h
  unfold lexicalDeclarator
  refine .here_bind fun start _ => ?_
  refine (hg.binding _ h (mayBind_of_ne (by simpa using hkind))).bind fun bound mid _ ⟨h, _⟩ => ?_
  refine .after_still (still_checkVariableName _ _) fun _ => ?_
  have hbare : Gives source (node start (.declarator false) [bound.1]) mid fun n later =>
      Accounted source later (n :: ns) := h.gives_plain (by simp [SameTrees]) rfl
  split
  · refine .after_still (still_seesKeyword _) fun keys => .after_still (still_seesName _) fun values => ?_
    split
    · exact hbare
    · refine h.accept_bind (by decide) (fun next _ h => gives_initialized hg h) fun _ => ?_
      exact .of_fails (fails_failBehind _)
  · refine .after_still (still_sees _) fun sign => ?_
    split
    · exact h.expect_bind (by decide) fun next _ h => gives_initialized hg h
    · exact hbare

/-- The end of a statement, and its node. -/
theorem Accounted.gives_statement {start : Mark} {form : Form} {parts ms : List Node}
    (h : Accounted source r ms) (hsame : SameTrees ms (parts ++ ns)) (hplain : form.isPlain = true) :
    Gives source (do
      endStatement
      Grammar.node start form parts) r fun n later => Accounted source later (n :: ns) :=
  h.endStatement_bind fun _ h => h.gives_plain hsame hplain

theorem adds_variableStatement (hg : g.Sound source) : Adds source (variableStatement g) := by
  intro r ns h
  unfold variableStatement
  refine .here_bind fun start _ => h.expectKeyword_bind fun next hvar h => ?_
  refine (gives_separated (gives_variableDeclarator hg _) h (by simp [hvar])).bind
    fun list later _ h => ?_
  exact h.gives_statement (fun _ => Iff.rfl) rfl

/-- The token ahead is the word that opens a declaration of a block. -/
def Declares (r : Reading) : Prop :=
  ∃ word, (word = "let" ∨ word = "const") ∧ r.ahead.lexeme = .keyword word

theorem quiet_of_keyword {t : Token} {word : String} (h : t.lexeme = .keyword word) :
    t.lexeme.Quiet := by
  rw [h]
  exact ⟨rfl, by simp⟩

/-- The variables behind the word. -/
theorem Declares.gives_declarators (hdeclares : Declares r) (hg : g.Sound source) {next : Token}
    (inFor : Bool) (h : Accounted source (r.after next) ns) :
    Gives source (separated (lexicalDeclarator g r.ahead.lexeme.text inFor)) (r.after next)
      fun list later => Accounted source later (list ++ ns) := by
  obtain ⟨word, hword, hahead⟩ := hdeclares
  have hkind : r.ahead.lexeme.text ≠ "var" := by
    rw [hahead]
    obtain rfl | rfl := hword <;> decide
  have hword : (r.after next).lexemes.getLast? = some r.ahead.lexeme := by simp
  exact gives_separated (fun h _ => adds_lexicalDeclarator hg hkind inFor h) h hword

theorem gives_lexicalDeclaration (hg : g.Sound source) (h : Accounted source r ns)
    (hdeclares : Declares r) :
    Gives source (lexicalDeclaration g) r fun n later => Accounted source later (n :: ns) := by
  have hquiet := quiet_of_keyword hdeclares.choose_spec.2
  unfold lexicalDeclaration
  refine .here_bind fun start _ => h.quiet_bind hquiet fun next h => ?_
  exact (hdeclares.gives_declarators hg false h).bind fun list later _ h =>
    h.gives_statement (fun _ => Iff.rfl) rfl

theorem still_letDeclares : Still letDeclares := by
  refine still_peekBeyond.bind fun t => ?_
  split <;> exact still_pure _

/-! ## Choices and loops -/

theorem adds_guarded (hg : g.Sound source) : Adds source (guarded g) := by
  intro r ns h
  unfold guarded
  refine .after_still still_strict fun strict => .after_still (still_seesKeyword _) fun function => ?_
  exact .unless (fails_failAhead _) fun _ => hg.statement h

theorem adds_ifStatement (hg : g.Sound source) : Adds source (ifStatement g) := by
  intro r ns h
  unfold ifStatement
  refine .here_bind fun start _ => h.expectKeyword_bind fun next _ h => ?_
  refine (adds_parenthesisedExpression hg h).bind fun test mid _ h => ?_
  refine (adds_guarded hg h).bind fun yes mid _ h => .seesKeyword_bind (fun helse => ?_) fun _ => ?_
  · refine h.quiet_bind (by rw [helse]; exact ⟨rfl, by simp⟩) fun next h => ?_
    exact (adds_guarded hg h).bind fun no later _ h =>
      h.gives_plain (by simp [SameTrees, or_left_comm]) rfl
  · exact h.gives_plain (by simp [SameTrees, or_left_comm]) rfl

theorem adds_doWhileLoop (hg : g.Sound source) : Adds source (doWhileLoop g) := by
  intro r ns h
  unfold doWhileLoop
  refine .here_bind fun start _ => h.expectKeyword_bind fun next _ h => ?_
  refine (hg.statement h).withLoop.bind fun body mid _ h => h.expectKeyword_bind fun next _ h => ?_
  refine (adds_parenthesisedExpression hg h).bind fun test mid _ h => ?_
  have hnode : ∀ {r : Reading}, Accounted source r (test :: body :: ns) →
      Gives source (node start .doWhileLoop [body.withRole .body, test]) r fun n later =>
        Accounted source later (n :: ns) :=
    fun h => h.gives_plain (by simp [SameTrees, or_left_comm]) rfl
  exact h.accept_bind (by decide) (fun next _ h => hnode h) fun _ => hnode h

theorem adds_whileLoop (hg : g.Sound source) : Adds source (whileLoop g) := by
  intro r ns h
  unfold whileLoop
  refine .here_bind fun start _ => h.expectKeyword_bind fun next _ h => ?_
  refine (adds_parenthesisedExpression hg h).bind fun test mid _ h => ?_
  exact (hg.statement h).withLoop.bind fun body later _ h =>
    h.gives_plain (by simp [SameTrees, or_left_comm]) rfl

/-- The nodes in the head of a loop. -/
def ForHead.nodes : ForHead → List Node
  | .steps parts => parts
  | .keys target object => [target, object]
  | .values target collection => [target, collection]

/-- The production gives the head of a loop, which is accounted for. -/
def GivesHead (source : List Char) (ns : List Node) (r : Reading) (p : Parse ForHead) : Prop :=
  Gives source p r fun head later => Accounted source later (head.nodes ++ ns)

theorem gives_loopSteps (hg : g.Sound source) {init : List Node}
    (h : Accounted source r (init ++ ns)) : GivesHead source ns r (loopSteps g init) := by
  have hupdate : ∀ {r : Reading} (test : List Node), Accounted source r (test ++ (init ++ ns)) →
      GivesHead source ns r (do
        expect ";"
        let update ← if ← sees ")" then pure [] else pure [← expression g]
        return .steps (init ++ test ++ update)) := by
    intro r test h
    refine h.expect_bind (by decide) fun next _ h => .sees_bind (fun _ => .pure ?_) fun _ => ?_
    · exact h.regroup (by simp [ForHead.nodes, SameTrees, or_left_comm])
    · refine (adds_expression hg h).bind ?_
      rintro update later _ ⟨h, _, _⟩
      refine .pure ?_
      exact h.regroup (by simp [ForHead.nodes, SameTrees, or_left_comm])
  unfold loopSteps
  refine .sees_bind (fun _ => hupdate [] h) fun _ => ?_
  refine (adds_expression hg h).bind ?_
  rintro test later _ ⟨h, _, _⟩
  exact hupdate [test] h

theorem gives_loopKeys (hg : g.Sound source) {target : Node}
    (h : Accounted source r (target :: ns))
    (hahead : r.ahead.lexeme.Quiet ∨ TakenForWord r.lexemes r.ahead.lexeme) :
    GivesHead source ns r (loopKeys g target) := by
  refine h.word_bind hahead fun next h => ?_
  refine (adds_expression hg h).bind fun object later _ ⟨h, _, _⟩ => .pure ?_
  exact h.regroup (by simp [ForHead.nodes, SameTrees, or_left_comm])

theorem gives_loopValues (hg : g.Sound source) {target : Node}
    (h : Accounted source r (target :: ns)) (hquiet : r.ahead.lexeme.Quiet) :
    GivesHead source ns r (loopValues g target) := by
  refine h.quiet_bind hquiet fun next h => ?_
  refine (hg.assignment h).bind fun collection later _ ⟨h, _, _⟩ => .pure ?_
  exact h.regroup (by simp [ForHead.nodes, SameTrees, or_left_comm])

/-- What was declared becomes a node, which stands in the head of the loop. -/
theorem Accounted.gives_declared {start : Mark} {kind : String} {list : List Node}
    {f : Node → Parse ForHead} (h : Accounted source r (list ++ ns))
    (k : ∀ n, Accounted source r (n :: ns) → GivesHead source ns r (f n)) :
    GivesHead source ns r (Grammar.node start (.variables kind) list >>= f) :=
  .node_bind fun _ => k _ (h.plain (fun _ => Iff.rfl) rfl)

theorem gives_varHead (hg : g.Sound source) (h : Accounted source r ns)
    (hvar : r.ahead.lexeme = .keyword "var") : GivesHead source ns r (varHead g) := by
  unfold varHead
  refine .here_bind fun start _ => h.quiet_bind (quiet_of_keyword hvar) fun next h => ?_
  refine (gives_separated (gives_variableDeclarator hg _) h (by simp [hvar])).withIn.bind
    fun list later _ h => ?_
  have hsteps : GivesHead source ns later (varHead.steps g start list) := by
    unfold varHead.steps
    refine h.gives_declared fun n h => ?_
    exact h.expect_bind (by decide) fun next _ h => gives_loopSteps hg h
  split
  · refine .seesKeyword_bind (fun hin => ?_) fun _ => ?_
    · refine .after_still still_strict fun strict => .unless (fails_failAhead _) fun _ => ?_
      exact h.gives_declared fun n h => gives_loopKeys hg h (.inl (quiet_of_keyword hin))
    · refine .tests_bind (tests_seesName _) fun values hvalues => ?_
      split
      · rename_i hseen
        have hof := hvalues (Bool.and_eq_true_iff.mp hseen).2
        exact h.gives_declared fun n h => gives_loopValues hg h hof
      · exact hsteps
  · exact hsteps

theorem gives_lexicalHead (hg : g.Sound source) (h : Accounted source r ns) (hdeclares : Declares r)
    (hbehind : [.keyword "for", .punctuator "("] <:+ r.lexemes) :
    GivesHead source ns r (lexicalHead g) := by
  have hquiet := quiet_of_keyword hdeclares.choose_spec.2
  unfold lexicalHead
  refine .here_bind fun start _ => h.quiet_bind hquiet fun next h => ?_
  refine .after_still still_strict fun strict => .ahead_bind ?_
  split
  · rename_i hin
    refine .of_sound fun _ hplain => .node_bind fun span => gives_loopKeys hg (h.leaf rfl) ?_
    have htext : next.lexeme.text = "in" := by simpa using (Bool.and_eq_true_iff.mp hin).2
    refine (quiet_or_template_of_text htext (.inr rfl) hplain).imp_right ?_
    rintro ⟨head, tail, hahead⟩
    obtain ⟨word, hword, hdeclared⟩ := hdeclares
    obtain ⟨before, hbefore⟩ := hbehind
    rw [Reading.after_ahead, hahead]
    exact .loop hword ⟨before, by simp [← hbefore, hdeclared]⟩
  refine (hdeclares.gives_declarators hg true h).withIn.bind fun list later _ h => ?_
  have hsteps : ∀ kind, GivesHead source ns later (lexicalHead.steps g start kind list) := by
    intro kind
    unfold lexicalHead.steps
    refine h.endStatement_bind fun later h => h.gives_declared fun n h => ?_
    exact gives_loopSteps hg h
  split
  · refine .seenKeyword_bind fun keys hkeys => ?_
    split
    · rename_i hseen
      have hin := quiet_of_keyword (hkeys (Bool.and_eq_true_iff.mp hseen).2)
      exact h.gives_declared fun n h => gives_loopKeys hg h (.inl hin)
    · refine .tests_bind (tests_seesName _) fun values hvalues => ?_
      split
      · rename_i hseen
        have hof := hvalues (Bool.and_eq_true_iff.mp hseen).2
        exact h.gives_declared fun n h => gives_loopValues hg h hof
      · exact hsteps _
  · exact hsteps _

theorem still_checkLoopTarget (target : Node) (fault : Fault) :
    Still (checkLoopTarget target fault) := by
  refine still_context.bind fun c => ?_
  exact .ite (fails_failAhead _).still (still_pure _)

theorem gives_expressionHead (hg : g.Sound source) (h : Accounted source r ns) :
    GivesHead source ns r (expressionHead g) := by
  unfold expressionHead
  refine .ahead_bind ((hg.assignment h).inherit.withIn.bind fun init later _ ⟨h, _, _⟩ => ?_)
  refine .seesKeyword_bind (fun hin => ?_) fun _ => .tests_bind (tests_seesName _) fun values hvalues => ?_
  · exact .after_still (still_checkLoopTarget _ _) fun _ =>
      gives_loopKeys hg h.asPattern (.inl (quiet_of_keyword hin))
  split
  · rename_i hseen
    exact .after_still (still_checkLoopTarget _ _) fun _ =>
      gives_loopValues hg h.asPattern (hvalues hseen)
  have hsteps : ∀ {init : Node} {r : Reading}, Accounted source r (init :: ns) →
      GivesHead source ns r (do
        expect ";"
        loopSteps g [init]) :=
    fun h => h.expect_bind (by decide) fun next _ h => gives_loopSteps hg h
  refine .sees_bind (fun _ => ?_) fun _ => hsteps h
  refine (gives_commas (E := fun _ _ => True) (fun h _ => (hg.assignment h).isolate.mono
    fun _ _ _ ⟨h, _, _⟩ => ⟨h, trivial⟩) h trivial).bind fun rest later _ ⟨h, _⟩ => ?_
  refine Gives.bind (gives_nodeFrom fun span _ _ => h.plain ?_ rfl) fun n later _ h => hsteps h
  simp [SameTrees, or_left_comm]

theorem adds_forLoop (hg : g.Sound source) : Adds source (forLoop g) := by
  intro r ns h
  unfold forLoop
  refine .here_bind fun start _ => h.expectKeyword_bind fun next hfor h => ?_
  refine h.expect_bind (by decide) fun next' hopen h => ?_
  have hend : ∀ {r : Reading} {head : ForHead}, Accounted source r (head.nodes ++ ns) →
      Gives source (do
        expect ")"
        let body ← withLoop (isolate g.statement)
        let body := body.withRole .body
        match head with
        | .steps parts => node start .forLoop (parts ++ [body])
        | .keys target object => node start .forInLoop [target, object, body]
        | .values target collection => node start .forOfLoop [target, collection, body]) r
        fun n later => Accounted source later (n :: ns) := by
    intro r head h
    refine h.expect_bind (by decide) fun next _ h => ?_
    refine (hg.statement h).isolate.withLoop.bind fun body later _ h => ?_
    cases head <;>
      exact h.gives_plain (by simp [ForHead.nodes, SameTrees, or_left_comm]) rfl
  refine h.accept_bind (by decide) (fun next _ h => ?_) fun _ => ?_
  · refine .after_still (still_seesKeyword _) fun _ => .after_still (still_seesKeyword _) fun _ =>
      .after_still (still_seesKeyword _) fun _ => ?_
    exact (gives_loopSteps hg h).bind fun head later _ h => hend h
  refine .seenKeyword_bind fun isVar hvar => .seenKeyword_bind fun isConst hconst =>
    .seenKeyword_bind fun isLet hlet => ?_
  rw [if_neg Bool.false_ne_true]
  split
  · rename_i hseen
    exact (gives_varHead hg h (hvar hseen)).bind fun head later _ h => hend h
  split
  · rename_i hseen
    refine (gives_lexicalHead hg h ?_ ⟨r.lexemes, ?_⟩).bind fun head later _ h => hend h
    · exact (Bool.or_eq_true_iff.mp hseen).elim (fun h => ⟨_, .inr rfl, hconst h⟩)
        fun h => ⟨_, .inl rfl, hlet h⟩
    · rw [Reading.lexemes_after, Reading.lexemes_after, hfor, hopen, List.append_assoc]
      rfl
  · exact (gives_expressionHead hg h).bind fun head later _ h => hend h

/-! ## Jumps and labels -/

theorem gives_jumpLabel (h : Accounted source r ns) :
    Gives source jumpLabel r fun label later => Accounted source later (label.toList ++ ns) := by
  unfold jumpLabel
  refine .ahead_bind (.after_still still_lineBreak fun broken => ?_)
  split
  · exact .pure h
  refine (adds_bindingName h).bind fun id later _ ⟨h, _⟩ => .after_still still_context fun c => ?_
  refine .unless (fails_failBehind _) fun _ => .pure ?_
  exact h

theorem adds_breakStatement : Adds source breakStatement := by
  intro r ns h
  unfold breakStatement
  refine .here_bind fun start _ => h.expectKeyword_bind fun next _ h => ?_
  refine (gives_jumpLabel h).bind fun label mid _ h => h.endStatement_bind fun later h => ?_
  refine .after_still still_context fun c => .unless (fails_failBehind _) fun _ => ?_
  exact h.gives_plain (fun _ => Iff.rfl) rfl

theorem adds_continueStatement : Adds source continueStatement := by
  intro r ns h
  unfold continueStatement
  refine .here_bind fun start _ => h.expectKeyword_bind fun next _ h => ?_
  refine (gives_jumpLabel h).bind fun label mid _ h => h.endStatement_bind fun later h => ?_
  refine .after_still still_context fun c => .unless (fails_failBehind _) fun _ => ?_
  exact h.gives_plain (fun _ => Iff.rfl) rfl

theorem adds_returnStatement (hg : g.Sound source) : Adds source (returnStatement g) := by
  intro r ns h
  unfold returnStatement
  refine .after_still still_context fun c => .unless (fails_failAhead _) fun _ => ?_
  refine .here_bind fun start _ => h.expectKeyword_bind fun next _ h => ?_
  refine .after_still (still_sees _) fun _ => .after_still (still_sees _) fun _ =>
    .after_still still_lineBreak fun _ => .after_still still_seesEnd fun _ =>
      .after_still still_ahead fun _ => ?_
  have hbare : Gives source (do
      endStatement
      node start .returnStatement []) (r.after next) fun n later => Accounted source later (n :: ns) :=
    h.gives_statement (fun _ => Iff.rfl) rfl
  have hvalue : Gives source (do
      let argument ← expression g
      endStatement
      node start .returnStatement [argument]) (r.after next) fun n later =>
        Accounted source later (n :: ns) :=
    (adds_expression hg h).bind fun argument later _ ⟨h, _, _⟩ =>
      h.gives_statement (by simp [SameTrees]) rfl
  dsimp only
  split
  all_goals
    split
    · exact hvalue
    · exact hbare

theorem adds_throwStatement (hg : g.Sound source) : Adds source (throwStatement g) := by
  intro r ns h
  unfold throwStatement
  refine .here_bind fun start _ => h.expectKeyword_bind fun next _ h => ?_
  refine .after_still still_lineBreak fun broken => .unless (fails_failBehind _) fun _ => ?_
  exact (adds_expression hg h).bind fun argument later _ ⟨h, _, _⟩ =>
    h.gives_statement (by simp [SameTrees]) rfl

theorem adds_labelled (hg : g.Sound source) : Adds source (labelled g) := by
  intro r ns h
  unfold labelled
  refine .here_bind fun start _ => (adds_expression hg h).bind fun expr mid _ ⟨h, _, _⟩ => ?_
  refine .seen_bind fun colon hcolon => ?_
  split
  · rename_i name _
    refine h.quiet_bind (by rw [hcolon rfl]; exact ⟨rfl, by simp⟩) fun next h => ?_
    refine .after_still still_context fun c => .unless (fails_failBehind _) fun _ => ?_
    refine .after_still (still_modifyContext _) fun _ => ?_
    have hend : ∀ {body : Node} {later : Reading}, Accounted source later (body :: expr :: ns) →
        Gives source (do
          modifyContext fun c => { c with labels := c.labels.erase name }
          node start .labeled [expr, body.withRole .body]) later fun n last =>
            Accounted source last (n :: ns) :=
      fun h => .after_still (still_modifyContext _) fun _ =>
        h.gives_plain (by simp [SameTrees, or_left_comm]) rfl
    refine .after_still (still_seesKeyword _) fun isClass => .after_still (still_seesKeyword _)
      fun isFunction => ?_
    split
    · exact .unexpectedAhead
    split
    · refine .ahead_bind ((adds_functionDeclaration hg h).bind fun declaration later _ h => ?_)
      refine .after_still still_strict fun strict => .unless (fails_failAt _ _) fun _ => ?_
      exact .unless (fails_failAt _ _) fun _ => hend h
    · exact (hg.statement h).bind fun body later _ h => hend h
  · exact h.gives_statement (by simp [SameTrees]) rfl

/-! ## Other statements -/

theorem adds_withStatement (hg : g.Sound source) : Adds source (withStatement g) := by
  intro r ns h
  unfold withStatement
  refine .after_still still_strict fun strict => .unless (fails_failAhead _) fun _ => ?_
  refine .here_bind fun start _ => h.expectKeyword_bind fun next _ h => ?_
  refine (adds_parenthesisedExpression hg h).bind fun object mid _ h => ?_
  exact (hg.statement h).bind fun body later _ h =>
    h.gives_plain (by simp [SameTrees, or_left_comm]) rfl

theorem adds_switchCase (hg : g.Sound source) : Adds source (switchCase g) := by
  intro r ns h
  unfold switchCase
  refine .here_bind fun start _ => ?_
  have hend : ∀ {test : List Node} {r : Reading}, Accounted source r (test ++ ns) →
      Gives source (do
        expect ":"
        let items ← many do
          if (← sees "\x7d") || (← seesKeyword "default") || (← seesKeyword "case") then return none
          return some (← g.item)
        node start (.switchCase test.isEmpty) (test ++ items)) r fun n later =>
          Accounted source later (n :: ns) := by
    intro test r h
    refine h.expect_bind (by decide) fun next _ h => (gives_items ?_ h).bind fun items later _ h => ?_
    · intro r ns h
      refine .after_still (still_sees _) fun _ => .after_still (still_seesKeyword _) fun _ =>
        .after_still (still_seesKeyword _) fun _ => ?_
      split
      · exact .pure h
      · exact (hg.item h).bind fun n later _ h => .pure h
    · exact h.gives_plain (by simp [SameTrees, or_left_comm]) rfl
  refine .seesKeyword_bind (fun hdefault => ?_) fun _ => ?_
  · exact h.quiet_bind (by rw [hdefault]; exact ⟨rfl, by simp⟩) fun next h => hend h
  · refine h.expectKeyword_bind fun next _ h => ?_
    refine (adds_expression hg h).bind ?_
    rintro test later _ ⟨h, _, _⟩
    exact hend h

theorem gives_switchCases (hg : g.Sound source) (fuel : Nat) :
    ∀ {hasDefault : Bool} {reversed : List Node} {r : Reading}, Accounted source r (reversed ++ ns) →
      Gives source (switchCases g fuel hasDefault reversed) r fun cases later =>
        Accounted source later (cases ++ ns) := by
  induction fuel with
  | zero => exact fun _ => .of_fails (fails_interrupt _)
  | succ fuel ih =>
      intro hasDefault reversed r h
      unfold switchCases
      refine .sees_bind (fun _ => .pure (h.regroup (by simp [SameTrees]))) fun _ => ?_
      refine (adds_switchCase hg h).bind fun clause later _ h => ?_
      exact .unless (fails_failBehind _) fun _ => ih h

theorem adds_switchStatement (hg : g.Sound source) : Adds source (switchStatement g) := by
  intro r ns h
  unfold switchStatement
  refine .here_bind fun start _ => h.expectKeyword_bind fun next _ h => ?_
  refine (adds_parenthesisedExpression hg h).bind fun subject mid _ h => ?_
  refine h.expect_bind (by decide) fun next _ h => .after_still still_context fun outer => ?_
  refine .after_still (still_modifyContext _) fun _ => .after_still still_budget fun _ => ?_
  refine (gives_switchCases hg _ h).bind fun cases later _ h => ?_
  refine .after_still (still_modifyContext _) fun _ => h.expect_bind (by decide) fun next _ h => ?_
  exact h.gives_plain (by simp [SameTrees, or_left_comm]) rfl

theorem adds_catchClause (hg : g.Sound source) : Adds source (catchClause g) := by
  intro r ns h
  unfold catchClause
  refine .here_bind fun start _ => h.expectKeyword_bind fun next _ h => ?_
  refine h.expect_bind (by decide) fun next _ h => .after_still (still_sees _) fun empty => ?_
  split
  · exact .unexpectedAhead
  refine (hg.binding _ h (mayBind_of_ne (by simp))).bind fun bound mid _ ⟨h, _⟩ => ?_
  have hend : Gives source (do
      checkVariableName bound.1 .strictCatchVariable
      expect ")"
      let body ← block g
      node start .catchClause [bound.1, body.withRole .body]) mid fun n later =>
        Accounted source later (n :: ns) := by
    refine .after_still (still_checkVariableName _ _) fun _ => h.expect_bind (by decide) fun next _ h => ?_
    exact (adds_block hg h).bind fun body later _ h =>
      h.gives_plain (by simp [SameTrees, or_left_comm]) rfl
  dsimp only
  split
  · exact .of_fails ((fails_failAhead _).bind _)
  · exact hend

theorem adds_tryStatement (hg : g.Sound source) : Adds source (tryStatement g) := by
  intro r ns h
  unfold tryStatement
  refine .here_bind fun start _ => h.expectKeyword_bind fun next _ h => ?_
  refine (adds_block hg h).bind fun body mid _ h => ?_
  have hnode : ∀ {handler finalizer : List Node} {r : Reading},
      Accounted source r (finalizer ++ (handler ++ body :: ns)) →
        Gives source (do
          if handler.isEmpty && finalizer.isEmpty then failBehind .missingCatchOrFinally
          node start .tryStatement (body :: handler ++ finalizer)) r fun n later =>
            Accounted source later (n :: ns) :=
    fun h => .unless (fails_failBehind _) fun _ =>
      h.gives_plain (by simp [SameTrees, or_left_comm]) rfl
  have hfinally : ∀ {handler : List Node} {r : Reading},
      Accounted source r (handler ++ body :: ns) →
        Gives source (do
          let finalizer ←
            if ← seesKeyword "finally" then
              let _ ← advance
              pure [← block g]
            else pure []
          if handler.isEmpty && finalizer.isEmpty then failBehind .missingCatchOrFinally
          node start .tryStatement (body :: handler ++ finalizer)) r fun n later =>
            Accounted source later (n :: ns) := by
    intro handler r h
    refine .seesKeyword_bind (fun hahead => ?_) fun _ => hnode h
    refine h.quiet_bind (by rw [hahead]; exact ⟨rfl, by simp⟩) fun next h => ?_
    exact (adds_block hg h).bind fun finalizer later _ h => hnode h
  refine .seesKeyword_bind (fun _ => ?_) fun _ => hfinally h
  exact (adds_catchClause hg h).bind fun handler later _ h => hfinally h

theorem adds_debuggerStatement : Adds source debuggerStatement := by
  intro r ns h
  unfold debuggerStatement
  refine .here_bind fun start _ => h.expectKeyword_bind fun next _ h => ?_
  exact h.gives_statement (fun _ => Iff.rfl) rfl

theorem adds_expressionStatement (hg : g.Sound source) : Adds source (expressionStatement g) := by
  intro r ns h
  unfold expressionStatement
  refine .here_bind fun start _ => (adds_expression hg h).bind fun expr later _ ⟨h, _, _⟩ => ?_
  exact h.gives_statement (by simp [SameTrees]) rfl

theorem adds_keywordStatement (hg : g.Sound source) (word : String) :
    Adds source (keywordStatement g word) := by
  intro r ns h
  unfold keywordStatement
  split
  · exact adds_breakStatement h
  · exact adds_continueStatement h
  · exact adds_debuggerStatement h
  · exact adds_doWhileLoop hg h
  · exact adds_forLoop hg h
  · exact adds_functionDeclaration hg h
  · exact adds_ifStatement hg h
  · exact adds_returnStatement hg h
  · exact adds_switchStatement hg h
  · exact adds_throwStatement hg h
  · exact adds_tryStatement hg h
  · exact adds_variableStatement hg h
  · exact adds_whileLoop hg h
  · exact adds_withStatement hg h
  · exact adds_expressionStatement hg h

theorem adds_statement (hg : g.Sound source) : Adds source (statement g) := by
  intro r ns h
  unfold statement
  refine .here_bind fun start _ => .ahead_bind ?_
  split
  · exact .of_fails (fails_unexpected _)
  · exact adds_block hg h
  · rename_i hahead
    refine h.quiet_bind (by rw [hahead]; exact ⟨rfl, by simp⟩) fun next h => ?_
    exact h.gives_plain (fun _ => Iff.rfl) rfl
  · refine .after_still still_seesAsyncFunction fun function => ?_
    split
    · exact adds_functionDeclaration hg h
    · exact adds_labelled hg h
  · exact adds_keywordStatement hg _ h
  · exact adds_expressionStatement hg h

theorem adds_item (hg : g.Sound source) : Adds source (item g) := by
  intro r ns h
  unfold item
  refine .after_still (still_modifyContext _) fun _ => .ahead_bind ?_
  split
  · exact .of_fails (fails_failAt _ _)
  · refine .after_still still_seesImportCall fun call => ?_
    split
    · exact adds_expressionStatement hg h
    · exact .of_fails (fails_failAt _ _)
  · exact gives_lexicalDeclaration hg h ⟨_, .inr rfl, by assumption⟩
  · exact adds_functionDeclaration hg h
  · exact (adds_classDeclaration hg h).mono fun _ _ _ hn => hn.1
  · refine .after_still still_letDeclares fun declares => ?_
    split
    · exact gives_lexicalDeclaration hg h ⟨_, .inl rfl, by assumption⟩
    · exact adds_statement hg h
  · exact adds_statement hg h

end EditionSurvey.Script.Grammar
